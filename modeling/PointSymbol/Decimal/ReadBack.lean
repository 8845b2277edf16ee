import PointSymbol.Binary.Nearest
import PointSymbol.Decimal.Shortest

/-!
# Decimals that read back

`toBinary_ofBinary`: the shortest decimal of a finite number reads back as the number, its sign
included. The powers of ten that `toBinary` does not compute would round to infinity and to zero.
-/

namespace PointSymbol.Decimal
-- the powers of core, whether or not a monoid of naturals is in scope
attribute [local instance (2000)] instPowNat
open Binary (Format nearestUnits nearestUnits_eq_infinity nearestUnits_eq_zero nearestUnits_mul_mul)
variable {f : Format}

theorem toBinary_ofNat (negative : Bool) (n e : Nat) :
    toBinary f ⟨negative, n, .ofNat e⟩ = .nearest negative (n * 10 ^ e) 1 := by
  rw [toBinary]
  split
  · next h =>
    rw [show n = 0 from h, Binary.nearest]
    exact (nearestUnits_eq_zero Nat.one_pos (by simp)).symm
  dsimp only
  split
  · next hn he =>
    refine (nearestUnits_eq_infinity Nat.one_pos ?_).symm
    rw [f.units_infinity, Nat.mul_one]
    refine Nat.mul_le_mul_right _ ?_
    calc 2 ^ 2 ^ (f.exponent - 1) ≤ 2 ^ e := Nat.pow_le_pow_right Nat.two_pos he
      _ ≤ 10 ^ e := Nat.pow_le_pow_left (by decide) e
      _ ≤ n * 10 ^ e := Nat.le_mul_of_pos_left _ (Nat.pos_of_ne_zero hn)
  · rfl

theorem toBinary_negSucc (negative : Bool) (n e : Nat) :
    toBinary f ⟨negative, n, .negSucc e⟩ = .nearest negative n (10 ^ (e + 1)) := by
  rw [toBinary]
  split
  · next h =>
    rw [show n = 0 from h, Binary.nearest]
    refine (nearestUnits_eq_zero (Nat.pow_pos (by decide)) ?_).symm
    rw [Nat.zero_mul, Nat.mul_zero]
    exact Nat.pow_pos (by decide)
  dsimp only
  split
  · next hn he =>
    refine (nearestUnits_eq_zero (Nat.pow_pos (by decide)) ?_).symm
    calc 2 * (n * 2 ^ f.scale) < 2 * (2 ^ (n.log2 + 1) * 2 ^ f.scale) :=
          Nat.mul_lt_mul_of_pos_left
            (Nat.mul_lt_mul_of_pos_right Nat.lt_log2_self (Nat.two_pow_pos _)) Nat.two_pos
      _ = 2 ^ (n.log2 + f.scale + 2) := by
          rw [← Nat.pow_add, ← Nat.pow_succ']
          congr 1
          omega
      _ ≤ 2 ^ (e + 1) := Nat.pow_le_pow_right Nat.two_pos (by omega)
      _ ≤ 10 ^ (e + 1) := Nat.pow_le_pow_left (by decide) _
  · rfl

/-- A decimal in steps of the finest grid. -/
theorem toBinary_sub_scale (negative : Bool) (n k : Nat) :
    toBinary f ⟨negative, n, k - f.scale⟩ = nearestUnits negative (n * 10 ^ k) (5 ^ f.scale) := by
  have h5 : 0 < 5 ^ f.scale := Nat.pow_pos (by decide)
  have hten (m : Nat) : 10 ^ m = 2 ^ m * 5 ^ m := by rw [← Nat.mul_pow]
  rcases Nat.le_total f.scale k with h | h
  · obtain ⟨e, rfl⟩ := Nat.exists_eq_add_of_le h
    have hk : ((f.scale + e : Nat) : Int) - f.scale = .ofNat e := by
      rw [Int.ofNat_eq_natCast]; omega
    rw [hk, toBinary_ofNat, Binary.nearest, ← nearestUnits_mul_mul negative Nat.one_pos h5,
      Nat.one_mul]
    congr 1
    rw [Nat.pow_add, hten f.scale]
    ac_rfl
  · obtain ⟨e, he⟩ := Nat.exists_eq_add_of_le h
    cases e with
    | zero =>
      rw [Nat.add_zero] at he
      have hk : (k : Int) - f.scale = .ofNat 0 := by rw [he]; exact Int.sub_self _
      rw [hk, toBinary_ofNat, Binary.nearest, ← nearestUnits_mul_mul negative Nat.one_pos h5,
        Nat.one_mul]
      congr 1
      rw [← he, hten f.scale, Nat.pow_zero, Nat.mul_one, Nat.mul_assoc]
    | succ e =>
      rw [show (k : Int) - f.scale = .negSucc e by omega, toBinary_negSucc, Binary.nearest,
        ← nearestUnits_mul_mul negative (Nat.pow_pos (by decide)) h5,
        ← nearestUnits_mul_mul negative h5 (show 0 < 10 ^ (e + 1) from Nat.pow_pos (by decide)),
        Nat.mul_comm (5 ^ f.scale)]
      congr 1
      rw [Nat.mul_assoc n, ← hten, Nat.mul_assoc n, ← Nat.pow_add, he]

theorem nearestCode_shorten (code w : Nat) (h : f.nearestCode w (5 ^ f.scale) = code) (k : Nat) :
    f.nearestCode ((shorten f code w k).1 * 10 ^ (shorten f code w k).2) (5 ^ f.scale) = code := by
  induction k with
  | zero => simpa [shorten] using h
  | succ k ih =>
    rw [shorten]
    split
    · next n hn => simpa [readsBack] using List.find?_some hn
    · exact ih

theorem toBinary_ofBinary {x : Binary f} (h : x.isFinite) : (ofBinary x).toBinary f = x := by
  rw [ofBinary]
  obtain ⟨negative, code, hcode⟩ := x
  split
  · next h0 =>
    have : code = 0 := by simpa [Binary.isZero] using h0
    subst this
    rw [toBinary, if_pos rfl]
    rfl
  · have hw := f.nearestCode_units (show 0 < 5 ^ f.scale from Nat.pow_pos (by decide))
      (Nat.le_of_lt (show code < f.infinity by simpa [Binary.isFinite] using h))
    dsimp only [Binary.units]
    simp only [toBinary_sub_scale, nearestUnits, nearestCode_shorten _ _ hw]

end PointSymbol.Decimal
