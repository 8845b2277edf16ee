import PointSymbol.Decimal.Form
import PointSymbol.Proofs.Decimal.Grammar
import PointSymbol.Proofs.Decimal.Value

/-!
# Positional texts

A positional text with a point is plain: it has digits on both sides of the point, no exponent, and
no zero in front of its whole part unless that is zero. It spells the value that it was written for.
-/

namespace PointSymbol.Decimal

/-- Unsigned plain texts. -/
inductive PlainDigits : List Char → Prop
  | mk {whole fraction : List Char} (hwhole : ∀ c ∈ whole, c.isDigit) (hne : whole ≠ [])
      (hzero : whole.head? = some '0' → whole = ['0']) (hfraction : ∀ c ∈ fraction, c.isDigit)
      (hne' : fraction ≠ []) : PlainDigits (whole ++ '.' :: fraction)

def Plain (cs : List Char) : Prop := ∃ negative ds, cs = signChars negative ++ ds ∧ PlainDigits ds

/-! ## Digits of naturals -/

theorem isDigit_of_mem_toDigits {n : Nat} {c : Char} (h : c ∈ Nat.toDigits 10 n) : c.isDigit :=
  Nat.isDigit_of_mem_toDigits (by decide) (by decide) h

theorem head?_toDigits_eq_zero {n : Nat} (h : (Nat.toDigits 10 n).head? = some '0') : n = 0 := by
  induction n using Nat.strong_induction_on with
  | _ n ih =>
    by_cases hlt : n < 10
    · rw [Nat.toDigits_of_lt_base hlt] at h
      simpa using h
    · rw [Nat.toDigits_of_base_le (by decide) (by omega),
        List.head?_append_of_ne_nil _ Nat.toDigits_ne_nil] at h
      have := ih (n / 10) (by omega) h
      omega

theorem ofDigits_append (as bs : List Char) :
    ofDigits (as ++ bs) = 10 ^ bs.length * ofDigits as + ofDigits bs := by
  rw [ofDigits, Nat.ofDigitChars_append, Nat.ofDigitChars_eq_ofDigitChars_zero]
  rfl

@[simp] theorem ofDigits_toDigits (n : Nat) : ofDigits (Nat.toDigits 10 n) = n := by
  simp [ofDigits]

@[simp] theorem ofDigits_paddedDigits (width n : Nat) : ofDigits (paddedDigits width n) = n := by
  simp [paddedDigits, ofDigits, Nat.ofDigitChars_append]

theorem length_paddedDigits {width n : Nat} (hwidth : 0 < width) (h : n < 10 ^ width) :
    (paddedDigits width n).length = width := by
  have hle := (Nat.length_toDigits_le_iff (by decide) hwidth).mpr h
  simp [paddedDigits]
  omega

theorem isDigit_of_mem_paddedDigits {width n : Nat} {c : Char} (h : c ∈ paddedDigits width n) :
    c.isDigit := by
  rw [paddedDigits, List.mem_append] at h
  rcases h with h | h
  · rw [List.eq_of_mem_replicate h]
    rfl
  · exact isDigit_of_mem_toDigits h

/-! ## The two parts of a positional text -/

def positionalFraction (digits : Nat) : Int → List Char
  | .ofNat _ => ['0']
  | .negSucc e => paddedDigits (e + 1) (digits % 10 ^ (e + 1))

def positionalWhole (digits : Nat) : Int → Nat
  | .ofNat e => digits * 10 ^ e
  | .negSucc e => digits / 10 ^ (e + 1)

theorem positionalChars_eq (digits : Nat) (e : Int) :
    positionalChars true digits e =
      Nat.toDigits 10 (positionalWhole digits e) ++ '.' :: positionalFraction digits e := by
  cases e <;> rfl

theorem isDigit_of_mem_positionalFraction {digits : Nat} {e : Int} {c : Char}
    (h : c ∈ positionalFraction digits e) : c.isDigit := by
  cases e with
  | ofNat e =>
    rw [List.mem_singleton.mp h]
    rfl
  | negSucc e => exact isDigit_of_mem_paddedDigits h

theorem positionalFraction_ne_nil (digits : Nat) (e : Int) : positionalFraction digits e ≠ [] := by
  cases e with
  | ofNat e => exact List.cons_ne_nil _ _
  | negSucc e => exact List.append_ne_nil_of_right_ne_nil _ Nat.toDigits_ne_nil

theorem plainDigits_positionalChars (digits : Nat) (e : Int) :
    PlainDigits (positionalChars true digits e) := by
  rw [positionalChars_eq]
  refine .mk (fun c => isDigit_of_mem_toDigits) Nat.toDigits_ne_nil (fun h => ?_)
    (fun c => isDigit_of_mem_positionalFraction) (positionalFraction_ne_nil digits e)
  rw [head?_toDigits_eq_zero h]
  rfl

theorem value_positional (digits : Nat) (e : Int) :
    (ofDigits (Nat.toDigits 10 (positionalWhole digits e) ++ positionalFraction digits e) : ℚ) *
      10 ^ (0 - ((positionalFraction digits e).length : Int)) = digits * 10 ^ e := by
  rw [ofDigits_append, ofDigits_toDigits]
  cases e with
  | ofNat e =>
    have h0 : ofDigits ['0'] = 0 := rfl
    simp only [positionalWhole, positionalFraction, h0]
    norm_num
    ring
  | negSucc e =>
    have hpos : 0 < 10 ^ (e + 1) := Nat.pow_pos (by decide)
    have hlen := length_paddedDigits (Nat.succ_pos e) (Nat.mod_lt digits hpos)
    simp only [positionalWhole, positionalFraction, ofDigits_paddedDigits, hlen,
      Nat.div_add_mod]
    rw [zero_sub, Int.negSucc_eq]
    rfl

/-! ## Reading plain texts -/

theorem writtenSign_signChars (negative : Bool) : WrittenSign (signChars negative) negative := by
  cases negative with
  | false => exact .none
  | true => exact .minus

theorem exists_read?_positionalChars (d : Decimal) :
    ∃ d', read? (signChars d.negative ++ positionalChars true d.digits d.exponent) = some d' ∧
      d'.negative = d.negative ∧ d'.toRat = d.toRat := by
  have hdigits : WrittenDigits (positionalChars true d.digits d.exponent)
      (Nat.toDigits 10 (positionalWhole d.digits d.exponent))
      (positionalFraction d.digits d.exponent) := by
    rw [positionalChars_eq]
    refine .point (fun c hc => ?_) (List.append_ne_nil_of_left_ne_nil Nat.toDigits_ne_nil _)
    exact (List.mem_append.mp hc).elim isDigit_of_mem_toDigits isDigit_of_mem_positionalFraction
  have hwritten := Written.mk (writtenSign_signChars d.negative) hdigits .none
  rw [List.append_nil] at hwritten
  refine ⟨_, read?_eq_some_iff.mpr hwritten, rfl, ?_⟩
  rw [toRat, toRat]
  exact congrArg _ (value_positional d.digits d.exponent)

end PointSymbol.Decimal
