import PointSymbol.Glsl.Literal
import PointSymbol.Proofs.Decimal.Forms

/-!
# Texts of literals

The text of a literal is plain and reads back as the literal. So literals with one text are equal.
-/

namespace PointSymbol.Glsl.Literal
open Decimal (Plain PlainDigits positionalChars read? signChars)

variable (a : Literal)

theorem toList_text : a.text.toList =
    signChars (Decimal.ofBinary a.value).negative ++
      positionalChars true (Decimal.ofBinary a.value).digits
        (Decimal.ofBinary a.value).exponent := by
  rw [text, Decimal.Form.text, String.toList_ofList, Decimal.Form.chars,
    Binary.isNaN_of_isFinite a.isFinite,
    Binary.isInfinite_of_isFinite a.isFinite]
  rfl

theorem pieces_eq : a.pieces =
    (if (Decimal.ofBinary a.value).negative then [.mark .minus] else []) ++
      [.token (.number (positionalChars true (Decimal.ofBinary a.value).digits
        (Decimal.ofBinary a.value).exponent))] := rfl

theorem chars_pieces : a.pieces.flatMap Piece.chars = a.text.toList := by
  rw [toList_text, pieces_eq]
  cases (Decimal.ofBinary a.value).negative with
  | false => simp [signChars, Piece.chars, Token.chars]
  | true => simp [signChars, Piece.chars, Token.chars, Piece.mark, Mark.chars]

theorem write_pieces : write a.pieces = a.text := by
  rw [write, chars_pieces, String.ofList_toList]

theorem plain_text : Plain a.text.toList :=
  ⟨_, _, toList_text a, Decimal.plainDigits_positionalChars _ _⟩

theorem exists_read?_text : ∃ d, read? a.text.toList = some d ∧ d.toBinary .double = a.value :=
  form.exists_read?_text a.isFinite

theorem value_injective : Function.Injective value := by
  rintro ⟨x, hx⟩ ⟨y, hy⟩ h
  congr

theorem text_inj {a b : Literal} : a.text = b.text ↔ a = b := by
  constructor
  · intro h
    obtain ⟨d, hd, ha⟩ := exists_read?_text a
    obtain ⟨d', hd', hb⟩ := exists_read?_text b
    rw [h, hd'] at hd
    obtain rfl := Option.some.inj hd
    cases a
    cases b
    congr 1
    exact ha.symm.trans hb
  · rintro rfl
    rfl

theorem ofDouble?_eq_some_iff {x : Double} {a : Literal} : ofDouble? x = some a ↔ a.value = x := by
  unfold ofDouble?
  split
  · constructor
    · rintro ⟨⟩
      rfl
    · rintro rfl
      rfl
  · next h =>
    constructor
    · rintro ⟨⟩
    · rintro rfl
      exact absurd a.isFinite h

theorem ofDouble?_eq_none_iff {x : Double} : ofDouble? x = none ↔ x.isFinite = false := by
  unfold ofDouble?
  split <;> simp_all

end PointSymbol.Glsl.Literal
