import PointSymbol.Proofs.Shader.Identity
import PointSymbol.Proofs.Symbol.Agreement

/-!
# Sources of equal styles

Equal styles have sources alike: both fail with one error, or both have a source. The sources are
the same unless a baked number is zero in both with different signs, for the two zeros are equal as
numbers but have different literals.
-/

namespace PointSymbol
open PointSymbol.Symbol (Field NumbersAgree)

/-! ## Agreement of baked numbers -/

namespace Vec2.Agrees
variable {v v' w w' : Vec2}

theorem add (hv : v.Agrees v') (hw : w.Agrees w') : (v + w).Agrees (v' + w') :=
  ⟨hv.x.add hw.x, hv.y.add hw.y⟩

theorem sub (hv : v.Agrees v') (hw : w.Agrees w') : (v - w).Agrees (v' - w') :=
  ⟨hv.x.sub hw.x, hv.y.sub hw.y⟩

theorem div (hv : v.Agrees v') (a : Double) : (v / a).Agrees (v' / a) :=
  ⟨hv.x.div a, hv.y.div a⟩

end Vec2.Agrees

theorem Color.Channels.Agrees.normalized {c d : Channels} (h : c.Agrees d) :
    c.normalized.Agrees d.normalized :=
  ⟨h.red.div 255, h.green.div 255, h.blue.div 255, h.alpha⟩

namespace Symbol
variable {xs ys : List (Field × Double)} {n m : Symbol} {b c : Shader.Baked}

/-- Zeros of agreeing numbers have the same signs. -/
def SameZeros (xs ys : List (Field × Double)) : Prop :=
  xs.Forall₂ (fun p q => p.2.isZero → p.2.negative = q.2.negative) ys

theorem NumbersAgree.values_eq_iff (h : NumbersAgree xs ys) :
    xs.map Prod.snd = ys.map Prod.snd ↔ SameZeros xs ys := by
  unfold NumbersAgree at h
  unfold SameZeros
  induction h with
  | nil => simp
  | cons hpq _ ih => rw [List.map_cons, List.map_cons, List.cons.injEq, hpq.2.eq_iff, ih,
      List.forall₂_cons]

theorem Agrees.bakedNumbers (h : n.Agrees m) : NumbersAgree n.bakedNumbers m.bakedNumbers := by
  have hhalf := h.size.div 2
  obtain ⟨hlowX, hlowY⟩ := h.offset.sub hhalf
  obtain ⟨hhighX, hhighY⟩ := h.offset.add hhalf
  obtain ⟨hred, hgreen, hblue, halpha⟩ := h.color.normalized
  obtain ⟨hu0, hv0, hu1, hv1⟩ := h.textureCoord
  have hopacity := h.opacity
  simp [NumbersAgree, Symbol.bakedNumbers, surfaceNumbers, Quad.Bounds.offsets, bounds,
    Quad.Bounds.around, Color.Channels.toList, *]

theorem Agrees.bake_eq_iff (h : n.Agrees m) (hb : n.bake = .ok b) (hc : m.bake = .ok c) :
    b = c ↔ SameZeros n.bakedNumbers m.bakedNumbers := by
  rw [bake_inj hb hc, h.bakedNumbers.values_eq_iff]
  exact and_iff_right h.rotatesWithView

theorem Agrees.bake_alike (h : n.Agrees m) :
    Alike (fun b c => b = c ↔ SameZeros n.bakedNumbers m.bakedNumbers) n.bake m.bake := by
  have hfind := h.bakedNumbers.find?_eq
  cases hn : n.bakedNumbers.find? fun p => !p.2.isFinite with
  | some p =>
    rw [bake_of_find?_eq_some hn, bake_of_find?_eq_some (hfind.symm.trans hn)]
    exact .error _
  | none =>
    have hm := hfind.symm.trans hn
    obtain ⟨b, hb, -⟩ := bake_of_forall_isFinite (s := n) (by simpa using hn)
    obtain ⟨c, hc, -⟩ := bake_of_forall_isFinite (s := m) (by simpa using hm)
    have hsame := h.bake_eq_iff hb hc
    rw [hb, hc]
    exact .ok hsame

end Symbol

namespace Style
variable {s t : Style}

/-- Equal styles fail with one error or both have a source. The sources are the same exactly if the
baked zeros have the same signs. -/
theorem vertexShader_alike (resolver : Color.Resolver) (h : s == t) :
    Alike (fun a b => ∃ n m, (s.resolve resolver).result = .ok n ∧
        (t.resolve resolver).result = .ok m ∧ n.rotatesWithView = m.rotatesWithView ∧
        NumbersAgree n.bakedNumbers m.bakedNumbers ∧
        (a = b ↔ Symbol.SameZeros n.bakedNumbers m.bakedNumbers))
      (s.vertexShader resolver).result (t.vertexShader resolver).result := by
  have hresolve := resolve_alike resolver h
  generalize hn : (s.resolve resolver).result = x at hresolve
  generalize hm : (t.resolve resolver).result = y at hresolve
  cases hresolve with
  | error e =>
    rw [vertexShader_of_resolve_error hn, vertexShader_of_resolve_error hm]
    exact .error e
  | @ok n m hagrees =>
    rw [vertexShader_of_resolve hn, vertexShader_of_resolve hm]
    refine hagrees.bake_alike.map fun hsame => ?_
    exact ⟨n, m, rfl, rfl, hagrees.rotatesWithView, hagrees.bakedNumbers,
      Shader.Baked.text_program_inj.trans hsame⟩

/-- A zero that is added to another number leaves no trace of its sign. -/
theorem vertexShader_alike_of_offset :
    let s : Style := { ofSize (.square 2) with offset := some ⟨0, .zero true⟩ }
    let t : Style := { ofSize (.square 2) with offset := some ⟨.zero true, 0⟩ }
    ∃ a, (s.vertexShader .css).result = .ok a ∧ (t.vertexShader .css).result = .ok a := by
  intro s t
  have hs : (s.resolve .css).result = .ok ⟨.splat 2, false, ⟨0, .zero true⟩, .full, 1, .white⟩ := by
    decide +kernel
  have ht : (t.resolve .css).result = .ok ⟨.splat 2, false, ⟨.zero true, 0⟩, .full, 1, .white⟩ := by
    decide +kernel
  obtain ⟨a, ha⟩ := vertexShader_of_forall_isFinite hs (by decide +kernel)
  have halike := vertexShader_alike .css (s := s) (t := t) (by decide +kernel)
  generalize hb : (t.vertexShader .css).result = y at halike
  rw [ha] at halike
  cases halike with
  | ok h =>
    obtain ⟨n, m, hn, hm, -, -, hsame⟩ := h
    obtain rfl := Except.ok.inj (hs.symm.trans hn)
    obtain rfl := Except.ok.inj (ht.symm.trans hm)
    obtain rfl := hsame.mpr (by unfold Symbol.SameZeros; decide +kernel)
    exact ⟨a, ha, rfl⟩

/-- A zero that is baked as it is keeps its sign, so equal styles may have different sources. -/
theorem vertexShader_ne_of_beq :
    let s : Style := { ofSize (.square 1) with opacity := some 0 }
    let t : Style := { ofSize (.square 1) with opacity := some (.zero true) }
    s == t ∧ ∃ a b, (s.vertexShader .css).result = .ok a ∧ (t.vertexShader .css).result = .ok b ∧
      a ≠ b := by
  intro s t
  have hs : (s.resolve .css).result = .ok ⟨.splat 1, false, .zero, .full, 0, .white⟩ := by
    decide +kernel
  have ht : (t.resolve .css).result = .ok ⟨.splat 1, false, .zero, .full, .zero true, .white⟩ := by
    decide +kernel
  obtain ⟨a, ha⟩ := vertexShader_of_forall_isFinite hs (by decide +kernel)
  obtain ⟨b, hb⟩ := vertexShader_of_forall_isFinite ht (by decide +kernel)
  obtain ⟨n, m, hn, hm, hsame⟩ := vertexShader_inj ha hb
  obtain rfl := Except.ok.inj (hs.symm.trans hn)
  obtain rfl := Except.ok.inj (ht.symm.trans hm)
  refine ⟨by decide +kernel, a, b, ha, hb, fun heq => ?_⟩
  obtain ⟨-, hvalues⟩ := hsame.mp heq
  exact absurd hvalues (by decide +kernel)

end Style

end PointSymbol
