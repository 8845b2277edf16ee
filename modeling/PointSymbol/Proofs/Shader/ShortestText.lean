import PointSymbol.Proofs.Decimal.Shortest
import PointSymbol.Proofs.Shader.FloatText

/-!
# Literal texts are shortest

The text of a finite number has no more significant digits than any decimal that reads back as the
number, hence at most seventeen, and no decimal with as many digits that reads back is nearer to it.
-/

namespace PointSymbol.Shader
open Decimal (ofBinary read? significant)
open Glsl (Literal)

/-- A literal text spells the shortest decimal of its number, maybe with more zeros. -/
theorem exists_read?_text_eq (a : Literal) : ∃ d, read? a.text.toList = some d ∧
    d.toBinary .double = a.value ∧ d.toRat = (ofBinary a.value).toRat ∧
    d.precision = (ofBinary a.value).precision := by
  obtain ⟨d, hread, hsign, hvalue⟩ := Decimal.exists_read?_positionalChars (ofBinary a.value)
  rw [← a.toList_text] at hread
  refine ⟨d, hread, ?_, hvalue, ?_⟩
  · rw [Decimal.toBinary_congr hsign hvalue, Decimal.toBinary_ofBinary a.isFinite]
  · rw [Decimal.toRat, Decimal.toRat, hsign, Binary.signed_inj] at hvalue
    exact Decimal.precision_congr hvalue

/-- The text of a finite number other than zero reads back as the number with as few significant
digits as any decimal that does, and is as near to it as any with that many. -/
theorem floatText_shortest (x : Double) (hx : x.isFinite) (hzero : x.isZero = false) :
    ∃ text d, floatText x = .ok text ∧ read? text.toList = some d ∧ d.toBinary .double = x ∧
      (significant text.toList).length = d.precision ∧ (significant text.toList).length ≤ 17 ∧
      ∀ d' : Decimal, d'.toBinary .double = x →
        (significant text.toList).length ≤ d'.precision ∧
        (d'.precision = (significant text.toList).length →
          |d.toRat - x.toRat| ≤ |d'.toRat - x.toRat|) := by
  let a : Literal := ⟨x, hx⟩
  obtain ⟨d, hread, hback, hvalue, hprecision⟩ := exists_read?_text_eq a
  have hlength := Decimal.length_significant_of_plain a.plain_text hread
  have hbound : 2 ^ (Binary.Format.double.fraction + 1) < 10 ^ 16 := by decide
  refine ⟨a.text, d, floatText_eq_ok_iff.mpr ⟨a, rfl, rfl⟩, hread, hback, hlength, ?_, ?_⟩
  · rw [hlength, hprecision]
    exact Decimal.precision_ofBinary_le_succ hx hzero hbound
  · intro d' hd'
    rw [hlength, hprecision, hvalue]
    exact ⟨Decimal.precision_ofBinary_le hx hzero hd',
      fun h => Decimal.abs_sub_ofBinary_le hx hzero hd' h.le⟩

/-- Two decimals of seventeen digits read back as this power of two. -/
theorem floatText_shortest_of_two_pow :
    let x : Double := .ofNat (2 ^ 77)
    let other : Decimal := ⟨false, 15111572745182864, 7⟩
    x.isFinite ∧ x.isZero = false ∧ floatText x = .ok "151115727451828650000000.0" ∧
      other.toBinary .double = x ∧ ∃ d, read? "151115727451828650000000.0".toList = some d ∧
        other.precision = 17 ∧ |d.toRat - x.toRat| ≤ |other.toRat - x.toRat| := by
  intro x other
  have hfinite : x.isFinite := by decide +kernel
  have hzero : x.isZero = false := by decide +kernel
  have htext : floatText x = .ok "151115727451828650000000.0" := by decide +kernel
  have hother : other.toBinary .double = x := by decide +kernel
  have hprecision : other.precision = 17 := by decide +kernel
  have hlength : (significant "151115727451828650000000.0".toList).length = 17 := by decide +kernel
  obtain ⟨text, d, htext', hread, -, -, -, h⟩ := floatText_shortest x hfinite hzero
  obtain rfl := Except.ok.inj (htext.symm.trans htext')
  exact ⟨hfinite, hzero, htext, hother, d, hread, hprecision,
    (h other hother).2 (hprecision.trans hlength.symm)⟩

end PointSymbol.Shader
