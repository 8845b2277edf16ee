import Mathlib.Data.List.Forall2
import PointSymbol.Proofs.Binary.Agreement
import PointSymbol.Proofs.Symbol.FirstFault

/-!
# Equal styles

Styles that are equal as styles, with numbers that are equal as numbers, resolve alike: to the same
error, or to symbols that differ at most in the signs of zeros.
-/

namespace PointSymbol
open Color (Channels Paint Resolver)
open PointSymbol.Symbol (Field)

/-- Two results that are the same error, or values that are related. -/
inductive Alike {ε α β : Type} (r : α → β → Prop) : Except ε α → Except ε β → Prop
  | error (e : ε) : Alike r (.error e) (.error e)
  | ok {a : α} {b : β} (h : r a b) : Alike r (.ok a) (.ok b)

theorem Alike.map {ε α α' β β' : Type} {r : α → β → Prop} {r' : α' → β' → Prop} {f : α → α'}
    {g : β → β'} {x : Except ε α} {y : Except ε β} (h : Alike r x y)
    (hr : ∀ {a b}, r a b → r' (f a) (g b)) : Alike r' (x.map f) (y.map g) := by
  cases h with
  | error e => exact .error e
  | ok h => exact .ok (hr h)

/-! ## Agreement of fields -/

/-- Options are equal if both are open or if both have equal values. -/
theorem optionRel_of_beq {α : Type} [BEq α] {a b : Option α} (h : a == b) :
    Option.Rel (fun x y => x == y) a b := by
  cases a with
  | none =>
    cases b with
    | none => exact .none
    | some y => cases h
  | some x =>
    cases b with
    | none => cases h
    | some y => exact .some h

theorem Binary.agrees_of_beq {f : Format} {x y : Binary f} (h : x == y) : x.Agrees y :=
  (agrees_iff_beq (beq_iff.mp h).1).mpr h

structure Vec2.Agrees (v w : Vec2) : Prop where
  x : v.x.Agrees w.x
  y : v.y.Agrees w.y

structure TextureRect.Agrees (r r' : TextureRect) : Prop where
  u0 : r.u0.Agrees r'.u0
  v0 : r.v0.Agrees r'.v0
  u1 : r.u1.Agrees r'.u1
  v1 : r.v1.Agrees r'.v1

structure Color.Channels.Agrees (c d : Channels) : Prop where
  red : c.red.Agrees d.red
  green : c.green.Agrees d.green
  blue : c.blue.Agrees d.blue
  alpha : c.alpha.Agrees d.alpha

namespace Vec2

theorem Agrees.refl (v : Vec2) : v.Agrees v := ⟨.refl _, .refl _⟩

theorem agrees_of_beq {v w : Vec2} (h : v == w) : v.Agrees w := by
  have h : (v.x == w.x && v.y == w.y) = true := h
  rw [Bool.and_eq_true] at h
  obtain ⟨hx, hy⟩ := h
  exact ⟨Binary.agrees_of_beq hx, Binary.agrees_of_beq hy⟩

end Vec2

namespace TextureRect

theorem Agrees.refl (r : TextureRect) : r.Agrees r := ⟨.refl _, .refl _, .refl _, .refl _⟩

theorem agrees_of_beq {r r' : TextureRect} (h : r == r') : r.Agrees r' := by
  have h : (r.u0 == r'.u0 && (r.v0 == r'.v0 && (r.u1 == r'.u1 && r.v1 == r'.v1))) = true := h
  simp only [Bool.and_eq_true] at h
  obtain ⟨hu0, hv0, hu1, hv1⟩ := h
  exact ⟨Binary.agrees_of_beq hu0, Binary.agrees_of_beq hv0, Binary.agrees_of_beq hu1,
    Binary.agrees_of_beq hv1⟩

end TextureRect

theorem Style.Size.Gives.agrees_of_beq {size size' : Size} {v v' : Vec2} (hv : size.Gives v)
    (hv' : size'.Gives v') (h : size == size') : v.Agrees v' := by
  cases hv with
  | square side =>
    cases hv' with
    | square side' =>
      have hside : side == side' := h
      exact ⟨Binary.agrees_of_beq hside, Binary.agrees_of_beq hside⟩
    | extent => cases h
  | extent width height =>
    cases hv' with
    | square => cases h
    | extent width' height' =>
      have h : (width == width' && height == height') = true := h
      rw [Bool.and_eq_true] at h
      exact ⟨Binary.agrees_of_beq h.1, Binary.agrees_of_beq h.2⟩

/-! ## Agreement of paints -/

namespace Color
variable {resolver : Resolver} {paint paint' : Option Paint} {t : String} {c : Channels}

theorem Channels.Agrees.refl (c : Channels) : c.Agrees c := ⟨.refl _, .refl _, .refl _, .refl _⟩

theorem Channels.agrees_of_beq {c d : Channels} (h : c == d) : c.Agrees d := by
  have h : (c.red == d.red && (c.green == d.green && (c.blue == d.blue && c.alpha == d.alpha))) =
    true := h
  simp only [Bool.and_eq_true] at h
  obtain ⟨hred, hgreen, hblue, halpha⟩ := h
  exact ⟨Binary.agrees_of_beq hred, Binary.agrees_of_beq hgreen, Binary.agrees_of_beq hblue,
    Binary.agrees_of_beq halpha⟩

/-- Equal paints are the same text, or channels that agree. -/
theorem Paint.beq_cases {p q : Paint} (h : p == q) : (∃ t, p = .text t ∧ q = .text t) ∨
    ∃ c d, p = .channels c ∧ q = .channels d ∧ c.Agrees d := by
  cases p with
  | text t =>
    cases q with
    | text t' =>
      have ht : t == t' := h
      obtain rfl := eq_of_beq ht
      exact .inl ⟨t, rfl, rfl⟩
    | channels => cases h
  | channels c =>
    cases q with
    | text => cases h
    | channels d =>
      have hc : c == d := h
      exact .inr ⟨c, d, rfl, rfl, Channels.agrees_of_beq hc⟩

theorem Paint.eq_text_of_beq (h : paint == paint') (ht : paint = some (.text t)) :
    paint' = some (.text t) := by
  subst ht
  cases optionRel_of_beq h with
  | some h =>
    rcases beq_cases h with ⟨t', ht, rfl⟩ | ⟨c, d, hc, -⟩
    · cases ht
      rfl
    · cases hc

/-- A resolver gives one answer for one text, so only channels that are set can differ. -/
theorem Resolver.Paints.of_beq (h : paint == paint') (hc : resolver.Paints paint c) :
    ∃ d, resolver.Paints paint' d ∧ c.Agrees d := by
  cases optionRel_of_beq h with
  | none => exact ⟨c, hc, .refl c⟩
  | some h =>
    rcases Paint.beq_cases h with ⟨t, rfl, rfl⟩ | ⟨c', d, rfl, rfl, hagrees⟩
    · exact ⟨c, hc, .refl c⟩
    · cases hc
      exact ⟨d, .channels d, hagrees⟩

end Color

/-! ## Agreement of symbols -/

namespace Symbol

/-- Numbers of the same fields that agree one by one. -/
def NumbersAgree (xs ys : List (Field × Double)) : Prop :=
  xs.Forall₂ (fun p q => p.1 = q.1 ∧ p.2.Agrees q.2) ys

/-- Numbers that agree have the same first number that is not finite. -/
theorem NumbersAgree.find?_eq {xs ys : List (Field × Double)} (h : NumbersAgree xs ys) :
    xs.find? (fun p => !p.2.isFinite) = ys.find? (fun p => !p.2.isFinite) := by
  unfold NumbersAgree at h
  induction h with
  | nil => rfl
  | @cons p q xs ys hpq _ ih =>
    obtain ⟨field, x⟩ := p
    obtain ⟨field', y⟩ := q
    obtain ⟨rfl, hxy⟩ : field = field' ∧ x.Agrees y := hpq
    have hfinite := hxy.isFinite_eq
    cases hx : x.isFinite with
    | false =>
      obtain rfl := hxy.eq_of_not_isFinite hx
      rw [List.find?_cons_of_pos (by simp [hx]), List.find?_cons_of_pos (by simp [hx])]
    | true =>
      rw [hx] at hfinite
      rw [List.find?_cons_of_neg (by simp [hx]), List.find?_cons_of_neg (by simp [← hfinite]), ih]

/-- Symbols that differ at most in the signs of zeros. -/
structure Agrees (n m : Symbol) : Prop where
  size : n.size.Agrees m.size
  rotatesWithView : n.rotatesWithView = m.rotatesWithView
  offset : n.offset.Agrees m.offset
  textureCoord : n.textureCoord.Agrees m.textureCoord
  opacity : n.opacity.Agrees m.opacity
  color : n.color.Agrees m.color

variable {n m : Symbol}

theorem Agrees.numbers (h : n.Agrees m) : NumbersAgree n.numbers m.numbers := by
  obtain ⟨⟨hwidth, hheight⟩, -, ⟨hx, hy⟩, ⟨hu0, hv0, hu1, hv1⟩, hopacity,
    ⟨hred, hgreen, hblue, halpha⟩⟩ := h
  simp [NumbersAgree, Symbol.numbers, TextureRect.toList, Channels.toList, *]

theorem Agrees.check_alike (h : n.Agrees m) : Alike Agrees n.check m.check := by
  have hfind := h.numbers.find?_eq
  unfold check
  rw [hfind]
  cases m.numbers.find? fun p => !p.2.isFinite with
  | none => exact .ok h
  | some p => exact .error _

end Symbol

/-! ## Resolving equal styles -/

namespace Style
variable {s t : Style}

theorem beq_iff : s == t ↔ s.size == t.size ∧ s.rotatesWithView = t.rotatesWithView ∧
    s.offset == t.offset ∧ s.textureCoord == t.textureCoord ∧ s.opacity == t.opacity ∧
    s.color == t.color := by
  have h : (s == t) = (s.size == t.size && (s.rotatesWithView == t.rotatesWithView &&
    (s.offset == t.offset && (s.textureCoord == t.textureCoord &&
      (s.opacity == t.opacity && s.color == t.color))))) := rfl
  simp [h]

/-- A default, or two values that are equal. -/
theorem getD_rel_of_beq {α : Type} [BEq α] {r : α → α → Prop} {a b : Option α} {default : α}
    (h : a == b) (hdefault : r default default) (hbeq : ∀ {x y : α}, x == y → r x y) :
    r (a.getD default) (b.getD default) := by
  cases optionRel_of_beq h with
  | none => exact hdefault
  | some h => exact hbeq h

theorem filled_agrees_of_beq (h : s == t) {v v' : Vec2} {c d : Channels} (hsides : v.Agrees v')
    (hcolor : c.Agrees d) : (s.filled v c).Agrees (t.filled v' d) := by
  obtain ⟨-, hrotates, hoffset, htextureCoord, hopacity, -⟩ := beq_iff.mp h
  exact {
    size := hsides
    rotatesWithView := hrotates
    offset := getD_rel_of_beq hoffset (.refl _) Vec2.agrees_of_beq
    textureCoord := getD_rel_of_beq htextureCoord (.refl _) TextureRect.agrees_of_beq
    opacity := getD_rel_of_beq hopacity (.refl _) Binary.agrees_of_beq
    color := hcolor }

theorem resolve_alike (resolver : Resolver) (h : s == t) :
    Alike Symbol.Agrees (s.resolve resolver).result (t.resolve resolver).result := by
  obtain ⟨hsize, -, -, -, -, hcolor⟩ := beq_iff.mp h
  have hsize := optionRel_of_beq hsize
  generalize hs : s.size = size at hsize
  generalize ht : t.size = size' at hsize
  cases hsize with
  | none =>
    rw [result_resolve_of_none hs, result_resolve_of_none ht]
    exact .error _
  | @some size size' hsize =>
    rcases resolver.rejects_or_paints s.color with ⟨text, e, htext, he⟩ | ⟨c, hc⟩
    · rw [result_resolve_of_rejects hs htext he,
        result_resolve_of_rejects ht (Paint.eq_text_of_beq hcolor htext) he]
      exact .error _
    · obtain ⟨d, hd, hagrees⟩ := hc.of_beq hcolor
      obtain ⟨v, hv⟩ := size.exists_gives
      obtain ⟨v', hv'⟩ := size'.exists_gives
      rw [result_resolve_of_paints hs hv hc, result_resolve_of_paints ht hv' hd]
      exact (filled_agrees_of_beq h (hv.agrees_of_beq hv' hsize) hagrees).check_alike

end Style

end PointSymbol
