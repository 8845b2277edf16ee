import PointSymbol.Proofs.Shader.FloatText
import PointSymbol.Proofs.Symbol.Resolve

/-!
# Baking

The literals of a baked symbol stand for its baked numbers, one by one and in order. Baking fails on
the first of these numbers that is not finite.
-/

namespace PointSymbol
open Glsl (Literal)
open PointSymbol.Symbol (Field)

namespace Shader

def Span.literals (s : Span) : List Literal := [s.low, s.high]

def Baked.literals (b : Baked) : List Literal :=
  b.offsetX.literals ++ b.offsetY.literals ++ b.texU.literals ++ b.texV.literals ++
    [b.opacity, b.red, b.green, b.blue, b.alpha]

/-- The literals of numbers, each with the field that it belongs to. -/
def literals (xs : List (Field × Double)) : Except Symbol.Error (List Literal) :=
  xs.mapM fun p => literal p.1 p.2

variable {xs : List (Field × Double)}

theorem literals_cons (p : Field × Double) : literals (p :: xs) = (do
    let a ← literal p.1 p.2
    let as ← literals xs
    pure (a :: as)) :=
  List.mapM_cons

theorem literals_of_forall_isFinite (h : ∀ p ∈ xs, p.2.isFinite) :
    ∃ as, literals xs = .ok as ∧ as.map Literal.value = xs.map Prod.snd := by
  induction xs with
  | nil => exact ⟨[], rfl, rfl⟩
  | cons p xs ih =>
    have hp := h p (by simp)
    obtain ⟨as, has, hvalues⟩ := ih fun q hq => h q (by simp [hq])
    refine ⟨⟨p.2, hp⟩ :: as, ?_, ?_⟩
    · rw [literals_cons, literal_of_isFinite hp, has]
      rfl
    · rw [List.map_cons, List.map_cons, hvalues]

theorem literals_of_find?_eq_some {p : Field × Double}
    (h : xs.find? (fun p => !p.2.isFinite) = some p) :
    literals xs = .error (.nonFinite p.1 p.2) := by
  induction xs with
  | nil => cases h
  | cons q xs ih =>
    rw [literals_cons]
    cases hq : q.2.isFinite with
    | false =>
      rw [List.find?_cons_of_pos (by simp [hq])] at h
      obtain rfl := Option.some.inj h
      rw [literal_of_not_isFinite hq]
      rfl
    | true =>
      rw [List.find?_cons_of_neg (by simp [hq])] at h
      rw [literal_of_isFinite hq, ih h]
      rfl

end Shader

/-! ## Baked numbers -/

namespace Quad.Bounds

/-- The offsets of the sides, in the order in which they are baked. -/
def offsets (b : Bounds) : List Double :=
  [b.offsetMin.x, b.offsetMax.x, b.offsetMin.y, b.offsetMax.y]

end Quad.Bounds

namespace Symbol

/-- The numbers that are baked after the offsets. -/
def surfaceNumbers (s : Symbol) : List (Field × Double) :=
  [s.textureCoord.u0, s.textureCoord.u1, s.textureCoord.v0, s.textureCoord.v1].map
    (.textureCoord, ·) ++ [(.opacity, s.opacity)] ++ s.color.normalized.toList.map (.color, ·)

def bakedNumbers (s : Symbol) : List (Field × Double) :=
  s.bounds.offsets.map (.offset, ·) ++ s.surfaceNumbers

variable {s : Symbol} {b : Shader.Baked}

theorem map_bake (s : Symbol) : (fun b => (b.rotates, b.literals)) <$> s.bake =
    Prod.mk s.rotatesWithView <$> Shader.literals s.bakedNumbers := by
  simp only [bake, Shader.span, Shader.literals, bakedNumbers, surfaceNumbers, Quad.Bounds.offsets,
    Color.Channels.toList, List.map_cons, List.map_nil, List.cons_append, List.nil_append,
    List.mapM_cons, List.mapM_nil, map_bind, map_pure, bind_assoc, pure_bind]
  rfl

theorem bake_of_forall_isFinite (h : ∀ p ∈ s.bakedNumbers, p.2.isFinite) :
    ∃ b, s.bake = .ok b ∧ b.rotates = s.rotatesWithView ∧
      b.literals.map Literal.value = s.bakedNumbers.map Prod.snd := by
  obtain ⟨as, has, hvalues⟩ := Shader.literals_of_forall_isFinite h
  have hmap := map_bake s
  rw [has] at hmap
  cases hbake : s.bake with
  | error e =>
    rw [hbake] at hmap
    cases hmap
  | ok b =>
    rw [hbake] at hmap
    obtain ⟨hrotates, rfl⟩ := Prod.mk.inj (Except.ok.inj hmap)
    exact ⟨b, rfl, hrotates, hvalues⟩

theorem bake_of_find?_eq_some {p : Field × Double}
    (h : s.bakedNumbers.find? (fun p => !p.2.isFinite) = some p) :
    s.bake = .error (.nonFinite p.1 p.2) := by
  have hmap := map_bake s
  rw [Shader.literals_of_find?_eq_some h] at hmap
  cases hbake : s.bake with
  | error e =>
    rw [hbake] at hmap
    cases hmap
    rfl
  | ok b =>
    rw [hbake] at hmap
    cases hmap

theorem values_of_bake (h : s.bake = .ok b) : b.rotates = s.rotatesWithView ∧
    b.literals.map Literal.value = s.bakedNumbers.map Prod.snd := by
  cases hfind : s.bakedNumbers.find? fun p => !p.2.isFinite with
  | some p =>
    rw [bake_of_find?_eq_some hfind] at h
    cases h
  | none =>
    obtain ⟨b', hbake, hb'⟩ := bake_of_forall_isFinite (s := s) (by simpa using hfind)
    obtain rfl := Except.ok.inj (hbake.symm.trans h)
    exact hb'

end Symbol

end PointSymbol
