import PointSymbol.Binary.Bits
import PointSymbol.Proofs.Shader.Generation
import PointSymbol.Proofs.Shader.Program
import PointSymbol.Proofs.Symbol.FirstFault

/-!
# Identity of sources

Two symbols have the same source exactly if they turn alike with the view and every baked number has
the same bits in both. So a source may stand for what was baked into it.
-/

namespace PointSymbol
open Glsl (Literal)

namespace Symbol
variable {n m : Symbol} {b c : Shader.Baked}

theorem bake_inj (hb : n.bake = .ok b) (hc : m.bake = .ok c) : b = c ↔
    n.rotatesWithView = m.rotatesWithView ∧
      n.bakedNumbers.map Prod.snd = m.bakedNumbers.map Prod.snd := by
  obtain ⟨hrotates, hvalues⟩ := values_of_bake hb
  obtain ⟨hrotates', hvalues'⟩ := values_of_bake hc
  rw [Shader.Baked.eq_iff_values, hrotates, hrotates', hvalues, hvalues']

/-- The bits of the numbers that are baked, in their order. -/
def bakedBits (n : Symbol) : List (BitVec Binary.Format.double.width) :=
  [n.bounds.offsetMin.x, n.bounds.offsetMax.x, n.bounds.offsetMin.y, n.bounds.offsetMax.y,
    n.bounds.texture.u0, n.bounds.texture.u1, n.bounds.texture.v0, n.bounds.texture.v1, n.opacity,
    n.color.normalized.red, n.color.normalized.green, n.color.normalized.blue,
    n.color.normalized.alpha].map Binary.bits

theorem bakedBits_eq (n : Symbol) :
    n.bakedBits = (n.bakedNumbers.map Prod.snd).map Binary.bits := rfl

theorem bakedBits_inj : n.bakedBits = m.bakedBits ↔
    n.bakedNumbers.map Prod.snd = m.bakedNumbers.map Prod.snd := by
  have hinjective : Function.Injective (Binary.bits (f := .double)) :=
    fun x y => Binary.bits_inj.mp
  rw [bakedBits_eq, bakedBits_eq, (List.map_injective_iff.mpr hinjective).eq_iff]

end Symbol

namespace Style
variable {resolver resolver' : Color.Resolver} {s t : Style} {a b : String}

theorem vertexShader_inj (ha : (s.vertexShader resolver).result = .ok a)
    (hb : (t.vertexShader resolver').result = .ok b) :
    ∃ n m, (s.resolve resolver).result = .ok n ∧ (t.resolve resolver').result = .ok m ∧
      (a = b ↔ n.rotatesWithView = m.rotatesWithView ∧
        n.bakedNumbers.map Prod.snd = m.bakedNumbers.map Prod.snd) := by
  obtain ⟨n, x, hn, hx, rfl⟩ := exists_baked ha
  obtain ⟨m, y, hm, hy, rfl⟩ := exists_baked hb
  exact ⟨n, m, hn, hm, Shader.Baked.text_program_inj.trans (Symbol.bake_inj hx hy)⟩

/-- Two sources, of any styles and resolvers, are the same exactly if the same was baked into them,
the signs of zeros included. -/
theorem vertexShader_identifies_bits (ha : (s.vertexShader resolver).result = .ok a)
    (hb : (t.vertexShader resolver').result = .ok b) :
    ∃ n m, (s.resolve resolver).result = .ok n ∧ (t.resolve resolver').result = .ok m ∧
      (a = b ↔ n.rotatesWithView = m.rotatesWithView ∧ n.bakedBits = m.bakedBits) := by
  obtain ⟨n, m, hn, hm, hsame⟩ := vertexShader_inj ha hb
  exact ⟨n, m, hn, hm, hsame.trans (and_congr_right' Symbol.bakedBits_inj.symm)⟩

/-- A symbol has one source, whatever style and palette describe it. -/
theorem vertexShader_identifies_bits_of_palette :
    let s := ofSize (.square 2)
    let t : Style := { ofSize (.extent 2 2) with color := some (.text "paper") }
    ∃ a, (s.vertexShader .css).result = .ok a ∧
      (t.vertexShader (.palette [("paper", .white)] none)).result = .ok a := by
  intro s t
  have hs : (s.resolve .css).result = .ok ⟨.splat 2, false, .zero, .full, 1, .white⟩ := by
    decide +kernel
  have ht : (t.resolve (.palette [("paper", .white)] none)).result =
      .ok ⟨.splat 2, false, .zero, .full, 1, .white⟩ := by decide +kernel
  obtain ⟨a, ha⟩ := vertexShader_of_forall_isFinite hs (by decide +kernel)
  obtain ⟨b, hb⟩ := vertexShader_of_forall_isFinite ht (by decide +kernel)
  obtain ⟨n, m, hn, hm, hsame⟩ := vertexShader_identifies_bits ha hb
  obtain rfl := Except.ok.inj (hs.symm.trans hn)
  obtain rfl := Except.ok.inj (ht.symm.trans hm)
  obtain rfl := hsame.mpr ⟨rfl, rfl⟩
  exact ⟨a, ha, hb⟩

end Style

end PointSymbol
