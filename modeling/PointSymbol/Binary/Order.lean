import PointSymbol.Binary.Basic

/-!
# Order of magnitudes

Magnitudes increase strictly with their codes, from one code to the next by one step of its binade.
-/

namespace PointSymbol.Binary.Format
-- the powers of core, whether or not a monoid of naturals is in scope
attribute [local instance (2000)] instPowNat
variable (f : Format)

/-- The distance from a magnitude to the next. -/
def gap (code : Nat) : Nat := 2 ^ (code / 2 ^ f.fraction - 1)

theorem gap_of_lt {code : Nat} (h : code < 2 ^ f.fraction) : f.gap code = 1 := by
  rw [gap, Nat.div_eq_of_lt h, Nat.zero_sub, Nat.pow_zero]

theorem gap_add {k n : Nat} (hn : 2 ^ f.fraction ≤ n) (hn' : n < 2 * 2 ^ f.fraction) :
    f.gap (k * 2 ^ f.fraction + n) = 2 ^ k := by
  have hp : 0 < 2 ^ f.fraction := Nat.two_pow_pos _
  rw [gap, Nat.add_comm, Nat.add_mul_div_right _ _ hp,
    Nat.div_eq_of_lt_le (by rwa [Nat.one_mul]) (by omega), Nat.add_sub_cancel_left]

/-- From the `k`th binade on, a code is `n` steps of the binade, the first step of the next binade
included. -/
theorem units_add {k n : Nat} (hn : 2 ^ f.fraction ≤ n) (hn' : n ≤ 2 * 2 ^ f.fraction) :
    f.units (k * 2 ^ f.fraction + n) = n * 2 ^ k := by
  have hp : 0 < 2 ^ f.fraction := Nat.two_pow_pos _
  rw [f.units_of_le (Nat.le_trans hn (Nat.le_add_left _ _)), Nat.add_comm (k * _),
    Nat.add_mul_div_right _ _ hp, Nat.add_mul_mod_self_right]
  rcases Nat.lt_or_eq_of_le hn' with h | rfl
  · rw [Nat.div_eq_of_lt_le (by rwa [Nat.one_mul]) (by omega), Nat.add_sub_cancel_left,
      Nat.mod_eq_sub_mod hn, Nat.mod_eq_of_lt (by omega), Nat.add_sub_cancel' hn]
  · rw [Nat.mul_mod_left, Nat.mul_div_cancel _ hp, Nat.add_zero, Nat.mul_comm 2, Nat.mul_assoc,
      ← Nat.pow_succ']
    congr 2
    omega

theorem units_succ (code : Nat) : f.units (code + 1) = f.units code + f.gap code := by
  have hp : 0 < 2 ^ f.fraction := Nat.two_pow_pos _
  by_cases h : code < 2 ^ f.fraction
  · rw [f.units_of_lt h, f.gap_of_lt h]
    rcases Nat.lt_or_eq_of_le (Nat.succ_le_of_lt h) with h' | h'
    · exact f.units_of_lt h'
    · have := f.units_add (k := 0) (Nat.le_of_eq h'.symm) (by omega)
      rwa [Nat.zero_mul, Nat.zero_add, Nat.pow_zero, Nat.mul_one] at this
  · obtain ⟨k, hk⟩ := Nat.exists_eq_add_of_le' (Nat.div_pos (Nat.not_lt.mp h) hp)
    have hr := Nat.mod_lt code hp
    have hc := Nat.div_add_mod' code (2 ^ f.fraction)
    rw [hk, Nat.succ_mul, Nat.add_assoc] at hc
    generalize code % 2 ^ f.fraction = r at hc hr
    rw [← hc, Nat.add_assoc (k * _), f.units_add (by omega) (by omega),
      f.units_add (by omega) (by omega), f.gap_add (by omega) (by omega), Nat.succ_mul]

theorem units_lt_units {c d : Nat} (h : c < d) : f.units c < f.units d := by
  induction h with
  | refl => rw [units_succ]; exact Nat.lt_add_of_pos_right (Nat.two_pow_pos _)
  | step _ ih => rw [units_succ]; exact Nat.lt_of_lt_of_le ih (Nat.le_add_right _ _)

theorem units_le_units {c d : Nat} : f.units c ≤ f.units d ↔ c ≤ d := by
  constructor
  · intro h
    exact Nat.not_lt.mp fun hlt => Nat.not_lt.mpr h (f.units_lt_units hlt)
  · intro h
    rcases Nat.lt_or_eq_of_le h with h | rfl
    · exact Nat.le_of_lt (f.units_lt_units h)
    · exact Nat.le_refl _

theorem two_le_two_pow : 2 ≤ 2 ^ (f.exponent - 1) := by
  have h := f.one_lt_exponent
  exact Nat.pow_le_pow_right Nat.two_pos (show 1 ≤ f.exponent - 1 by omega)

theorem two_pow_exponent : 2 ^ f.exponent = 2 ^ (f.exponent - 1) + 2 ^ (f.exponent - 1) := by
  have h := f.one_lt_exponent
  rw [← Nat.two_mul, ← Nat.pow_succ', Nat.succ_eq_add_one, Nat.sub_add_cancel (by omega)]

theorem units_infinity :
    f.units f.infinity = 2 ^ (2 ^ (f.exponent - 1) : Nat) * 2 ^ f.scale := by
  have h := f.two_le_two_pow
  have hu := f.units_add (k := 2 ^ f.exponent - 2) (Nat.le_refl (2 ^ f.fraction)) (by omega)
  have he := f.two_pow_exponent
  rw [← Nat.succ_mul] at hu
  rw [infinity, show 2 ^ f.exponent - 1 = (2 ^ f.exponent - 2).succ by omega, hu, ← Nat.pow_add,
    ← Nat.pow_add, scale]
  congr 1
  omega

end PointSymbol.Binary.Format
