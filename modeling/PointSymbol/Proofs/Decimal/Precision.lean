import Mathlib.Data.List.DropRight
import PointSymbol.Proofs.Decimal.Positional

/-!
# Significant digits

The significant digits of a text are its digits without the zeros in front and at the end.
`precision_le_iff`: a decimal has at most `p` of them exactly if its magnitude is a natural below
`10 ^ p` times a power of ten, so their number depends on the magnitude only. A plain text has as
many as the decimal that it spells.
-/

namespace PointSymbol.Decimal

def significant (cs : List Char) : List Char :=
  ((cs.filter Char.isDigit).dropWhile (· == '0')).rdropWhile (· == '0')

def precision (d : Decimal) : ℕ := (significant (Nat.toDigits 10 d.digits)).length

example : significant "-00012.030".toList = "1203".toList := by decide

/-! ## Digits -/

section Digits
variable {c : Char} {cs ds : List Char}

theorem ofDigits_singleton (h : c.isDigit) : ofDigits [c] < 10 ∧ (ofDigits [c] = 0 ↔ c = '0') := by
  have hvalue : ofDigits [c] = c.toNat - 48 := by simp [ofDigits, Nat.ofDigitChars]
  have hzero : '0'.toNat = 48 := rfl
  obtain ⟨hle, hge⟩ := Text.toNat_of_isDigit h
  rw [hvalue, ← Char.toNat_inj, hzero]
  omega

theorem ofDigits_cons (c : Char) (cs : List Char) :
    ofDigits (c :: cs) = 10 ^ cs.length * ofDigits [c] + ofDigits cs :=
  ofDigits_append [c] cs

theorem ofDigits_lt (h : ∀ c ∈ cs, c.isDigit) : ofDigits cs < 10 ^ cs.length := by
  induction cs with
  | nil => exact Nat.one_pos
  | cons c cs ih =>
    obtain ⟨hc, hcs⟩ := List.forall_mem_cons.mp h
    have hdigit := (ofDigits_singleton hc).1
    have hle : 10 ^ cs.length * ofDigits [c] ≤ 10 ^ cs.length * 9 :=
      Nat.mul_le_mul_left _ (by omega)
    have hlt := ih hcs
    rw [ofDigits_cons, List.length_cons, pow_succ]
    omega

theorem ofDigits_dropWhile (cs : List Char) :
    ofDigits (cs.dropWhile (· == '0')) = ofDigits cs := by
  induction cs with
  | nil => rfl
  | cons c cs ih =>
    rw [List.dropWhile_cons]
    split
    · next h =>
      have hzero : ofDigits ['0'] = 0 := rfl
      rw [ih, ofDigits_cons, beq_iff_eq.mp h, hzero, mul_zero, zero_add]
    · rfl

/-- The digit in front is not zero. -/
theorem pow_length_dropWhile_le (h : ∀ c ∈ cs, c.isDigit) (hne : cs.dropWhile (· == '0') ≠ []) :
    10 ^ (cs.dropWhile (· == '0')).length ≤ 10 * ofDigits cs := by
  have hhead := List.head?_dropWhile_not (· == '0') cs
  have hsub : ∀ c ∈ cs.dropWhile (· == '0'), c.isDigit :=
    fun c hc => h c ((List.dropWhile_sublist _).mem hc)
  rw [← ofDigits_dropWhile cs]
  cases hds : cs.dropWhile (· == '0') with
  | nil => exact absurd hds hne
  | cons c ds =>
    rw [hds] at hhead hsub
    have hzero := (ofDigits_singleton (hsub c List.mem_cons_self)).2
    have hpos : 1 ≤ ofDigits [c] := by
      rw [Nat.one_le_iff_ne_zero, ne_eq, hzero]
      simpa using hhead
    have hle := Nat.mul_le_mul_left (10 ^ ds.length) hpos
    rw [ofDigits_cons, List.length_cons, pow_succ]
    omega

theorem exists_ofDigits_rdropWhile (cs : List Char) : ∃ i,
    cs.length = (cs.rdropWhile (· == '0')).length + i ∧
      ofDigits cs = ofDigits (cs.rdropWhile (· == '0')) * 10 ^ i := by
  have hsplit := List.rdropWhile_append_rtakeWhile (p := (· == '0')) (l := cs)
  have hzeros : cs.rtakeWhile (· == '0') = List.replicate (cs.rtakeWhile (· == '0')).length '0' :=
    List.eq_replicate_of_mem fun c hc => by simpa using List.mem_rtakeWhile_imp hc
  have hvalue : ofDigits (cs.rtakeWhile (· == '0')) = 0 := by
    rw [hzeros]
    simp [ofDigits]
  refine ⟨(cs.rtakeWhile (· == '0')).length, ?_, ?_⟩
  · rw [← List.length_append, hsplit]
  · rw [← hsplit, ofDigits_append, hvalue, hsplit, mul_comm, add_zero]

/-- The digit at the end is not zero. -/
theorem not_ten_dvd_ofDigits_rdropWhile (h : ∀ c ∈ cs, c.isDigit)
    (hne : cs.rdropWhile (· == '0') ≠ []) : ¬10 ∣ ofDigits (cs.rdropWhile (· == '0')) := by
  have hlast := List.rdropWhile_last_not (· == '0') cs hne
  have hdigit := h _ ((List.rdropWhile_prefix _ _).subset (List.getLast_mem hne))
  obtain ⟨hlt, hzero⟩ := ofDigits_singleton hdigit
  rw [beq_iff_eq, ← hzero] at hlast
  rw [← List.dropLast_append_getLast hne, ofDigits_append, List.length_singleton, pow_one]
  omega

end Digits

/-! ## Their number -/

section Precision
variable {cs : List Char} {p : ℕ}

theorem significant_of_digits (h : ∀ c ∈ cs, c.isDigit) :
    significant cs = (cs.dropWhile (· == '0')).rdropWhile (· == '0') := by
  rw [significant, List.filter_eq_self.mpr h]

theorem length_significant_le_iff (h : ∀ c ∈ cs, c.isDigit) :
    (significant cs).length ≤ p ↔ ∃ m < 10 ^ p, ∃ j, ofDigits cs = m * 10 ^ j := by
  have hsub : ∀ c ∈ cs.dropWhile (· == '0'), c.isDigit :=
    fun c hc => h c ((List.dropWhile_sublist _).mem hc)
  obtain ⟨i, hlength, hvalue⟩ := exists_ofDigits_rdropWhile (cs.dropWhile (· == '0'))
  rw [ofDigits_dropWhile] at hvalue
  rw [significant_of_digits h]
  constructor
  · intro hle
    refine ⟨_, ?_, i, hvalue⟩
    have hlt := ofDigits_lt fun c hc => hsub c ((List.rdropWhile_prefix (· == '0') _).subset hc)
    exact hlt.trans_le (Nat.pow_le_pow_right (by decide) hle)
  · intro hm
    obtain ⟨m, hm, j, hj⟩ := hm
    by_cases hne : (cs.dropWhile (· == '0')).rdropWhile (· == '0') = []
    · rw [hne]
      exact Nat.zero_le p
    have hji : j ≤ i := by
      by_contra hij
      obtain ⟨l, rfl⟩ := Nat.exists_eq_add_of_lt (not_le.mp hij)
      apply not_ten_dvd_ofDigits_rdropWhile hsub hne
      refine ⟨m * 10 ^ l, Nat.eq_of_mul_eq_mul_right (show 0 < 10 ^ i by positivity) ?_⟩
      rw [← hvalue, hj]
      ring
    have hpow := pow_length_dropWhile_le h fun hnil => hne (by rw [hnil]; rfl)
    have hlt : 10 ^ (cs.dropWhile (· == '0')).length < 10 ^ (p + 1 + j) := by
      calc 10 ^ (cs.dropWhile (· == '0')).length ≤ 10 * (m * 10 ^ j) := by rwa [← hj]
        _ < 10 * (10 ^ p * 10 ^ j) := by gcongr
        _ = 10 ^ (p + 1 + j) := by ring
    have hexponent := (Nat.pow_lt_pow_iff_right (by decide)).mp hlt
    omega

theorem precision_le_iff {d : Decimal} : d.precision ≤ p ↔
    ∃ m : ℕ, m < 10 ^ p ∧ ∃ k : ℤ, (d.digits * 10 ^ d.exponent : ℚ) = m * 10 ^ k := by
  rw [precision, length_significant_le_iff fun c => isDigit_of_mem_toDigits, ofDigits_toDigits]
  constructor
  · intro h
    obtain ⟨m, hm, j, hj⟩ := h
    refine ⟨m, hm, j + d.exponent, ?_⟩
    rw [hj, zpow_add₀ (by norm_num), zpow_natCast, Nat.cast_mul, Nat.cast_pow, mul_assoc]
    rfl
  · intro h
    obtain ⟨m, hm, k, hk⟩ := h
    rcases le_total d.exponent k with hle | hle
    · obtain ⟨j, rfl⟩ := Int.exists_add_of_le hle
      rw [zpow_add₀ (by norm_num), mul_left_comm, mul_comm, mul_right_inj' (by positivity),
        zpow_natCast] at hk
      exact ⟨m, hm, j, by exact_mod_cast hk⟩
    · obtain ⟨j, hj⟩ := Int.exists_add_of_le hle
      rw [hj, zpow_add₀ (by norm_num), mul_left_comm, mul_comm (m : ℚ),
        mul_right_inj' (by positivity), zpow_natCast] at hk
      have hdigits : d.digits * 10 ^ j = m := by exact_mod_cast hk
      have hle := Nat.le_mul_of_pos_right d.digits (show 0 < 10 ^ j by positivity)
      exact ⟨d.digits, by omega, 0, by rw [pow_zero, mul_one]⟩

/-- The precision depends on the magnitude only. -/
theorem precision_congr {d d' : Decimal}
    (h : (d.digits * 10 ^ d.exponent : ℚ) = d'.digits * 10 ^ d'.exponent) :
    d.precision = d'.precision := by
  apply le_antisymm
  · rw [precision_le_iff, h, ← precision_le_iff]
  · rw [precision_le_iff, ← h, ← precision_le_iff]

/-- A plain text shows the significant digits of what it spells. -/
theorem length_significant_of_plain {d : Decimal} (h : Plain cs) (hread : read? cs = some d) :
    (significant cs).length = d.precision := by
  obtain ⟨negative, _, rfl, hplain⟩ := h
  obtain @⟨whole, fraction, hwhole, hne, -, hfraction, -⟩ := hplain
  have hdigit : ∀ c ∈ whole ++ fraction, c.isDigit :=
    fun c hc => (List.mem_append.mp hc).elim (hwhole c) (hfraction c)
  have hwritten := Written.mk (writtenSign_signChars negative)
    (.point hdigit (List.append_ne_nil_of_left_ne_nil hne _)) .none
  rw [List.append_nil, ← read?_eq_some_iff, hread, Option.some.injEq] at hwritten
  have hsign : (signChars negative).filter Char.isDigit = [] := by cases negative <;> rfl
  have hfilter : (signChars negative ++ (whole ++ '.' :: fraction)).filter Char.isDigit =
      (whole ++ fraction).filter Char.isDigit := by
    rw [List.filter_append, hsign, List.filter_append, List.filter_append]
    rfl
  apply eq_of_forall_ge_iff
  intro p
  rw [significant, hfilter, ← significant, length_significant_le_iff hdigit, precision,
    length_significant_le_iff fun c => isDigit_of_mem_toDigits, ofDigits_toDigits, hwritten]

end Precision

end PointSymbol.Decimal
