import PointSymbol.Binary.Basic

/-!
# Bits and bytes of binary numbers

The bits of a number are its sign and then its code. A number is the same thing as its bits.
-/

namespace PointSymbol.Binary
-- the powers of core, whether or not a monoid of naturals is in scope
attribute [local instance (2000)] instPowNat
variable {f : Format}

def bits (x : Binary f) : BitVec f.width :=
  BitVec.ofNat _ (x.negative.toNat * 2 ^ (f.exponent + f.fraction) + x.code)

def ofBits (b : BitVec f.width) : Binary f where
  negative := b.msb
  code := ⟨b.toNat % 2 ^ (f.exponent + f.fraction), Nat.mod_lt _ (Nat.two_pow_pos _)⟩

theorem toNat_bits (x : Binary f) :
    x.bits.toNat = x.negative.toNat * 2 ^ (f.exponent + f.fraction) + x.code := by
  have h : x.negative.toNat * 2 ^ (f.exponent + f.fraction) + x.code < 2 ^ f.width := by
    have := x.code.isLt
    have := Bool.toNat_le x.negative
    have := Nat.mul_le_mul_right (2 ^ (f.exponent + f.fraction)) this
    rw [Format.width, Nat.pow_succ]
    omega
  rw [bits, BitVec.toNat_ofNat, Nat.mod_eq_of_lt h]

theorem ofBits_bits (x : Binary f) : ofBits x.bits = x := by
  obtain ⟨negative, code, hc⟩ := x
  have hm : (bits ⟨negative, code, hc⟩).msb = negative := by
    rw [BitVec.msb_eq_decide, toNat_bits]
    cases negative <;> simp [Format.width, hc]
  simp only [ofBits, hm, toNat_bits]
  congr 2
  rw [Nat.mul_comm, Nat.mul_add_mod, Nat.mod_eq_of_lt hc]

theorem bits_inj {x y : Binary f} : x.bits = y.bits ↔ x = y := by
  constructor
  · intro h
    rw [← ofBits_bits x, h, ofBits_bits]
  · rintro rfl
    rfl

theorem bits_ofBits (b : BitVec f.width) : (ofBits b).bits = b := by
  apply BitVec.eq_of_toNat_eq
  rw [toNat_bits]
  have hb := b.isLt
  have hw : 2 ^ f.width = 2 ^ (f.exponent + f.fraction) * 2 := Nat.pow_succ ..
  have hp := Nat.two_pow_pos (f.exponent + f.fraction)
  have hm : b.msb = decide (2 ^ (f.exponent + f.fraction) ≤ b.toNat) := BitVec.msb_eq_decide b
  simp only [ofBits, hm]
  by_cases h : 2 ^ (f.exponent + f.fraction) ≤ b.toNat
  · rw [decide_eq_true h, Bool.toNat_true, Nat.one_mul, Nat.mod_eq_sub_mod h,
      Nat.mod_eq_of_lt (by omega)]
    omega
  · rw [decide_eq_false h, Bool.toNat_false, Nat.zero_mul, Nat.zero_add,
      Nat.mod_eq_of_lt (by omega)]

/-- The bytes of the bits, least significant first. -/
def littleEndian (x : Binary f) : List UInt8 :=
  (List.range ((f.width + 7) / 8)).map fun i => UInt8.ofNat (x.bits.toNat >>> (8 * i))

theorem length_littleEndian (x : Binary f) : x.littleEndian.length = (f.width + 7) / 8 := by
  rw [littleEndian, List.length_map, List.length_range]

end PointSymbol.Binary
