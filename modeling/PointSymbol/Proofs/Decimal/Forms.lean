import PointSymbol.Proofs.Binary.Finite
import PointSymbol.Proofs.Decimal.Positional

/-!
# Forms that read back

A text with an exponent has the digits of its decimal, with a point after the first one if there are
more. So whatever a form writes positionally, the text of a finite number reads back as the number.
-/

namespace PointSymbol.Decimal

/-! ## Texts with an exponent -/

theorem writtenExponent_signChars (e : Int) :
    WrittenExponent ('e' :: (signChars (e < 0) ++ Nat.toDigits 10 e.natAbs)) e := by
  have h := WrittenExponent.power (.inl rfl) (writtenSign_signChars (e < 0))
    (fun c => isDigit_of_mem_toDigits) (Nat.toDigits_ne_nil (b := 10) (n := e.natAbs))
  have hvalue : (if (decide (e < 0)) = true then -(e.natAbs : Int) else e.natAbs) = e := by
    by_cases he : e < 0
    · rw [if_pos (decide_eq_true he)]
      omega
    · rw [if_neg (by simpa using he)]
      omega
  rwa [ofDigits_toDigits, hvalue] at h

theorem exists_writtenDigits_exponentChars (d : Decimal) :
    ∃ mantissa whole fraction,
      exponentChars d = mantissa ++ 'e' :: (signChars (d.leadingExponent < 0) ++
        Nat.toDigits 10 d.leadingExponent.natAbs) ∧
      WrittenDigits mantissa whole fraction ∧ whole ++ fraction = Nat.toDigits 10 d.digits ∧
      fraction.length + 1 = (Nat.toDigits 10 d.digits).length := by
  have hdigit (c) (hc : c ∈ Nat.toDigits 10 d.digits) : c.isDigit := isDigit_of_mem_toDigits hc
  unfold exponentChars
  -- a single digit has no point after it
  rcases hds : Nat.toDigits 10 d.digits with _ | ⟨c, _ | ⟨c', cs⟩⟩
  · exact absurd hds Nat.toDigits_ne_nil
  · rw [hds] at hdigit
    exact ⟨[c], [c], [], rfl, .integer hdigit (List.cons_ne_nil _ _), rfl, rfl⟩
  · rw [hds] at hdigit
    have hpoint : WrittenDigits ([c] ++ '.' :: c' :: cs) [c] (c' :: cs) :=
      .point hdigit (List.cons_ne_nil _ _)
    exact ⟨_, [c], c' :: cs, rfl, hpoint, rfl, rfl⟩

/-- The exponent of the leading digit, less the digits that follow it. -/
theorem value_exponent (d : Decimal) {k : Nat} (hk : k + 1 = (Nat.toDigits 10 d.digits).length) :
    (d.digits : ℚ) * 10 ^ (d.leadingExponent - k) = d.digits * 10 ^ d.exponent := by
  unfold leadingExponent
  split
  · next h =>
    rw [h]
    simp
  · rw [← hk]
    congr 2
    push_cast
    ring

theorem exists_read?_exponentChars (d : Decimal) :
    ∃ d', read? (signChars d.negative ++ exponentChars d) = some d' ∧
      d'.negative = d.negative ∧ d'.toRat = d.toRat := by
  obtain ⟨mantissa, whole, fraction, hchars, hdigits, hall, hlength⟩ :=
    exists_writtenDigits_exponentChars d
  have hwritten := Written.mk (writtenSign_signChars d.negative) hdigits
    (writtenExponent_signChars d.leadingExponent)
  rw [List.append_assoc, ← hchars, hall, ofDigits_toDigits] at hwritten
  refine ⟨_, read?_eq_some_iff.mpr hwritten, rfl, ?_⟩
  rw [toRat, toRat]
  exact congrArg _ (value_exponent d hlength)

/-! ## Texts of numbers -/

theorem exists_read?_integer (negative : Bool) (n e : Nat) :
    ∃ d, read? (signChars negative ++ positionalChars false n (.ofNat e)) = some d ∧
      d.negative = negative ∧ d.toRat = toRat ⟨negative, n, .ofNat e⟩ := by
  have hdigits : WrittenDigits (Nat.toDigits 10 (n * 10 ^ e)) (Nat.toDigits 10 (n * 10 ^ e)) [] :=
    .integer (fun c => isDigit_of_mem_toDigits) Nat.toDigits_ne_nil
  have hwritten := Written.mk (writtenSign_signChars negative) hdigits .none
  have hchars : positionalChars false n (.ofNat e) = Nat.toDigits 10 (n * 10 ^ e) :=
    List.append_nil _
  rw [List.append_nil, List.append_nil, ofDigits_toDigits, ← hchars] at hwritten
  refine ⟨_, read?_eq_some_iff.mpr hwritten, rfl, ?_⟩
  simp [toRat]

namespace Form
variable {f : Binary.Format} (form : Form)

theorem exists_read?_positional (d : Decimal) :
    ∃ d', read? (signChars d.negative ++ positionalChars form.pointZero d.digits d.exponent) =
        some d' ∧ d'.negative = d.negative ∧ d'.toRat = d.toRat := by
  cases hpoint : form.pointZero with
  | true => exact exists_read?_positionalChars d
  | false =>
    obtain ⟨negative, n, e⟩ := d
    cases e with
    | ofNat e => exact exists_read?_integer negative n e
    | negSucc e => exact exists_read?_positionalChars ⟨negative, n, .negSucc e⟩

theorem exists_read?_decimalChars (d : Decimal) :
    ∃ d', read? (form.decimalChars d) = some d' ∧ d'.negative = d.negative ∧
      d'.toRat = d.toRat := by
  unfold decimalChars
  split
  · exact form.exists_read?_positional d
  · exact exists_read?_exponentChars d

theorem exists_read?_text {x : Binary f} (h : x.isFinite) :
    ∃ d, read? (form.text x).toList = some d ∧ d.toBinary f = x := by
  obtain ⟨d, hread, hnegative, hvalue⟩ := form.exists_read?_decimalChars (ofBinary x)
  refine ⟨d, ?_, ?_⟩
  · rw [text, String.toList_ofList, chars, Binary.isNaN_of_isFinite h,
      Binary.isInfinite_of_isFinite h]
    exact hread
  · rw [toBinary_congr hnegative hvalue, toBinary_ofBinary h]

end Form

end PointSymbol.Decimal
