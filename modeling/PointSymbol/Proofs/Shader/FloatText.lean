import PointSymbol.Binary.Bits
import PointSymbol.Proofs.Glsl.Literal
import PointSymbol.Shader.Baked

/-!
# Literal texts of numbers

Every finite number has a literal text and no other number has one. The text is plain, and the
number is the nearest one to the decimal that it spells.
-/

namespace PointSymbol.Shader
open Decimal (Plain Written)
open Glsl (Literal)

variable {field : Symbol.Field} {x : Double}

theorem literal_eq_ok_iff {a : Literal} : literal field x = .ok a ↔ a.value = x := by
  rw [← Literal.ofDouble?_eq_some_iff, literal]
  split <;> simp_all

theorem literal_of_isFinite (h : x.isFinite) : literal field x = .ok ⟨x, h⟩ :=
  literal_eq_ok_iff.mpr rfl

theorem literal_of_not_isFinite (h : x.isFinite = false) :
    literal field x = .error (.nonFinite field x) := by
  rw [literal, Literal.ofDouble?_eq_none_iff.mpr h]

theorem floatText_eq_ok_iff {text : String} :
    floatText x = .ok text ↔ ∃ a : Literal, a.value = x ∧ a.text = text := by
  unfold floatText
  constructor
  · intro h
    cases ha : literal .value x with
    | error e => rw [ha] at h; cases h
    | ok a =>
      rw [ha] at h
      exact ⟨a, literal_eq_ok_iff.mp ha, Except.ok.inj h⟩
  · rintro ⟨a, rfl, rfl⟩
    rw [literal_of_isFinite a.isFinite]
    rfl

theorem exists_floatText_iff : (∃ text, floatText x = .ok text) ↔ x.isFinite := by
  constructor
  · rintro ⟨text, h⟩
    obtain ⟨a, rfl, -⟩ := floatText_eq_ok_iff.mp h
    exact a.isFinite
  · intro h
    exact ⟨_, floatText_eq_ok_iff.mpr ⟨⟨x, h⟩, rfl, rfl⟩⟩

theorem floatText_of_not_isFinite (h : x.isFinite = false) :
    floatText x = .error (.nonFinite .value x) := by
  rw [floatText, literal_of_not_isFinite h]
  rfl

theorem plain_of_floatText {text : String} (h : floatText x = .ok text) : Plain text.toList := by
  obtain ⟨a, -, rfl⟩ := floatText_eq_ok_iff.mp h
  exact a.plain_text

theorem written_of_floatText {text : String} (h : floatText x = .ok text) :
    ∃ d, Written text.toList d ∧ d.toBinary .double = x := by
  obtain ⟨a, rfl, rfl⟩ := floatText_eq_ok_iff.mp h
  obtain ⟨d, hread, hd⟩ := a.exists_read?_text
  exact ⟨d, Decimal.read?_eq_some_iff.mp hread, hd⟩

theorem floatText_eq_iff {y : Double} (hx : x.isFinite) (hy : y.isFinite) :
    floatText x = floatText y ↔ x.bits = y.bits := by
  constructor
  · intro h
    obtain ⟨text, hx⟩ := exists_floatText_iff.mpr hx
    obtain ⟨a, rfl, ha⟩ := floatText_eq_ok_iff.mp hx
    obtain ⟨b, rfl, hb⟩ := floatText_eq_ok_iff.mp (h.symm.trans hx)
    rw [Literal.text_inj.mp (ha.trans hb.symm)]
  · intro h
    rw [Binary.bits_inj.mp h]

/-- Literal texts lose nothing: they are plain decimals of the finite numbers, from which rounding
to nearest, ties to even, gives back the number, the sign of a zero included. -/
theorem floatText_lossless (x : Double) :
    ((∃ text, floatText x = .ok text) ↔ x.isFinite) ∧
      (∀ text, floatText x = .ok text → Plain text.toList ∧
        ∃ d, Written text.toList d ∧ Decimal.read? text.toList = some d ∧
          d.toBinary .double = x ∧ x.negative = d.negative ∧ x.IsNearest d.toRat) ∧
      (x.isFinite = false → floatText x = .error (.nonFinite .value x)) ∧
      ∀ y : Double, x.isFinite → y.isFinite → (floatText x = floatText y ↔ x.bits = y.bits) := by
  refine ⟨exists_floatText_iff, fun text h => ⟨plain_of_floatText h, ?_⟩,
    floatText_of_not_isFinite, fun y => floatText_eq_iff⟩
  obtain ⟨d, hwritten, hd⟩ := written_of_floatText h
  have hnearest := Decimal.toBinary_eq_iff.mp hd
  exact ⟨d, hwritten, Decimal.read?_eq_some_iff.mpr hwritten, hd, hnearest⟩

theorem floatText_lossless_of_negative_zero :
    ∃ d, Written "-0.0".toList d ∧ d.toBinary .double = .zero true ∧ d.negative := by
  obtain ⟨-, hread, -⟩ := floatText_lossless (.zero true)
  have htext : floatText (.zero true) = .ok "-0.0" := by decide +kernel
  obtain ⟨-, d, hwritten, -, hd, hsign, -⟩ := hread "-0.0" htext
  exact ⟨d, hwritten, hd, hsign.symm⟩

end PointSymbol.Shader
