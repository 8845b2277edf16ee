import PointSymbol.Proofs.Binary.Rounding
import PointSymbol.Proofs.Shader.Baking
import PointSymbol.Shader.Source

/-!
# Failures of generation

Resolving and generating fail alike. A resolved symbol has a source exactly if the offsets of its
bounds are finite: nothing else overflows, and finite numbers never add up to a NaN.
-/

namespace PointSymbol
open PointSymbol.Symbol (Field)

/-! ## Finite baked numbers -/

theorem Color.Channels.isFinite_normalized {c : Color.Channels}
    (h : ∀ x ∈ c.toList, x.isFinite) : ∀ x ∈ c.normalized.toList, x.isFinite := by
  have h255 : (255 : Double).isFinite := by decide +kernel
  have hone : 2 ^ Binary.Format.double.scale ≤ (255 : Double).units := by decide +kernel
  intro x hx
  simp only [toList, normalized, List.mem_cons, List.not_mem_nil, or_false] at hx
  rcases hx with rfl | rfl | rfl | rfl
  · exact Binary.isFinite_div (h _ (by simp [toList])) h255 hone
  · exact Binary.isFinite_div (h _ (by simp [toList])) h255 hone
  · exact Binary.isFinite_div (h _ (by simp [toList])) h255 hone
  · exact h _ (by simp [toList])

namespace Symbol
variable {s : Symbol}

theorem isFinite_surfaceNumbers (h : ∀ p ∈ s.numbers, p.2.isFinite) :
    ∀ p ∈ s.surfaceNumbers, p.2.isFinite := by
  have htexture (x) (hx : x ∈ s.textureCoord.toList) : x.isFinite :=
    h (.textureCoord, x) (by simp [numbers, hx])
  have hcolor := Color.Channels.isFinite_normalized fun x (hx : x ∈ s.color.toList) =>
    h (.color, x) (by simp [numbers, hx])
  intro p hp
  simp only [surfaceNumbers, List.mem_append, List.mem_map] at hp
  rcases hp with (⟨x, hx, rfl⟩ | hp) | ⟨x, hx, rfl⟩
  · apply htexture
    simp only [List.mem_cons, List.not_mem_nil, or_false] at hx
    rcases hx with rfl | rfl | rfl | rfl <;> simp [TextureRect.toList]
  · rw [List.mem_singleton.mp hp]
    exact h (.opacity, s.opacity) (by simp [numbers])
  · exact hcolor x hx

theorem forall_mem_offsets {motive : Double → Prop}
    (hx : motive (s.offset.x - s.size.x / (2 : Double)) ∧
      motive (s.offset.x + s.size.x / (2 : Double)))
    (hy : motive (s.offset.y - s.size.y / (2 : Double)) ∧
      motive (s.offset.y + s.size.y / (2 : Double))) :
    ∀ x ∈ s.bounds.offsets, motive x := by
  intro x hmem
  simp only [Quad.Bounds.offsets, List.mem_cons, List.not_mem_nil, or_false] at hmem
  rcases hmem with rfl | rfl | rfl | rfl
  · exact hx.1
  · exact hx.2
  · exact hy.1
  · exact hy.2

theorem isNaN_offsets (h : ∀ p ∈ s.numbers, p.2.isFinite) :
    ∀ x ∈ s.bounds.offsets, x.isNaN = false := by
  have hside {size offset : Double} (hs : size.isFinite) (ho : offset.isFinite) :
      (offset - size / (2 : Double)).isNaN = false ∧ (offset + size / (2 : Double)).isNaN = false :=
    ⟨Binary.isNaN_sub ho (Binary.isFinite_half hs).1,
      Binary.isNaN_add ho (Binary.isFinite_half hs).1⟩
  apply forall_mem_offsets
  · exact hside (h (.size, s.size.x) (by simp [numbers]))
      (h (.offset, s.offset.x) (by simp [numbers]))
  · exact hside (h (.size, s.size.y) (by simp [numbers]))
      (h (.offset, s.offset.y) (by simp [numbers]))

/-- The sides of an axis are finite around zero and in the inner quarter of the range. -/
theorem isFinite_sides {size offset : Double} (hs : size.isFinite) (ho : offset.isFinite)
    (h : offset.toRat = 0 ∨ |size.toRat| ≤ 2 ^ 1022 ∧ |offset.toRat| ≤ 2 ^ 1022) :
    (offset - size / (2 : Double)).isFinite ∧ (offset + size / (2 : Double)).isFinite := by
  obtain ⟨hhalf, hle⟩ := Binary.isFinite_half hs
  rcases h with h | ⟨hsize, hoffset⟩
  · have hzero : offset.units = 0 := by
      have habs := Binary.units_le_iff (x := offset) (n := 0)
      rw [h] at habs
      simpa using habs
    exact ⟨Binary.isFinite_sub_of_units_eq_zero ho hhalf hzero,
      Binary.isFinite_add_of_units_eq_zero ho hhalf hzero⟩
  · have hu := Binary.units_le_iff (x := size) (n := 2 ^ 1022)
    have hu' := Binary.units_le_iff (x := offset) (n := 2 ^ 1022)
    have hinfinity : 2 * (2 ^ 1022 * 2 ^ Binary.Format.double.scale +
        2 ^ 1022 * 2 ^ Binary.Format.double.scale) ≤
          Binary.Format.double.units Binary.Format.double.infinity := by decide +kernel
    have hsum : 2 * (offset.units + (size / (2 : Double)).units) ≤
        Binary.Format.double.units Binary.Format.double.infinity := by
      have := hu.mpr (by exact_mod_cast hsize)
      have := hu'.mpr (by exact_mod_cast hoffset)
      omega
    exact ⟨Binary.isFinite_sub_of_le ho hhalf hsum, Binary.isFinite_add_of_le ho hhalf hsum⟩

theorem find?_bakedNumbers (h : ∀ p ∈ s.numbers, p.2.isFinite) :
    s.bakedNumbers.find? (fun p => !p.2.isFinite) =
      (s.bounds.offsets.find? fun x => !x.isFinite).map (.offset, ·) := by
  have hnone : s.surfaceNumbers.find? (fun p => !p.2.isFinite) = none := by
    simpa using isFinite_surfaceNumbers h
  rw [bakedNumbers, List.find?_append, hnone, Option.or_none, List.find?_map]
  rfl

end Symbol

namespace Style
variable {resolver : Color.Resolver} {s : Style} {n : Symbol}

theorem result_vertexShader (resolver : Color.Resolver) (s : Style) :
    (s.vertexShader resolver).result =
      (s.resolve resolver).result >>= fun n => n.bake.map fun b => b.program.text := by
  simp only [vertexShader, Logged.result_bind, Logged.result_liftM, Logged.result_record,
    Logged.result_pure]
  rfl

theorem vertexShader_of_resolve (hn : (s.resolve resolver).result = .ok n) :
    (s.vertexShader resolver).result = n.bake.map fun b => b.program.text := by
  rw [result_vertexShader, hn]
  rfl

theorem vertexShader_of_resolve_error {e : Symbol.Error}
    (h : (s.resolve resolver).result = .error e) : (s.vertexShader resolver).result = .error e := by
  rw [result_vertexShader, h]
  rfl

theorem exists_baked {source : String} (h : (s.vertexShader resolver).result = .ok source) :
    ∃ n b, (s.resolve resolver).result = .ok n ∧ n.bake = .ok b ∧ source = b.program.text := by
  cases hn : (s.resolve resolver).result with
  | error e =>
    rw [vertexShader_of_resolve_error hn] at h
    cases h
  | ok n =>
    rw [vertexShader_of_resolve hn] at h
    cases hb : n.bake with
    | error e =>
      rw [hb] at h
      cases h
    | ok b =>
      rw [hb] at h
      exact ⟨n, b, rfl, hb, (Except.ok.inj h).symm⟩

theorem vertexShader_of_find?_eq_some (hn : (s.resolve resolver).result = .ok n) {x : Double}
    (h : n.bounds.offsets.find? (fun x => !x.isFinite) = some x) :
    (s.vertexShader resolver).result = .error (.nonFinite .offset x) := by
  have hfind := Symbol.find?_bakedNumbers (isFinite_of_resolve hn)
  rw [h] at hfind
  rw [vertexShader_of_resolve hn, Symbol.bake_of_find?_eq_some hfind]
  rfl

theorem vertexShader_of_forall_isFinite (hn : (s.resolve resolver).result = .ok n)
    (h : ∀ x ∈ n.bounds.offsets, x.isFinite) :
    ∃ source, (s.vertexShader resolver).result = .ok source := by
  have hfind := Symbol.find?_bakedNumbers (isFinite_of_resolve hn)
  have hnone : n.bounds.offsets.find? (fun x => !x.isFinite) = none := by simpa using h
  rw [hnone] at hfind
  obtain ⟨b, hb, -⟩ := Symbol.bake_of_forall_isFinite (s := n) (by simpa using hfind)
  refine ⟨b.program.text, ?_⟩
  rw [vertexShader_of_resolve hn, hb]
  rfl

theorem exists_source_iff (hn : (s.resolve resolver).result = .ok n) :
    (∃ source, (s.vertexShader resolver).result = .ok source) ↔
      ∀ x ∈ n.bounds.offsets, x.isFinite := by
  constructor
  · rintro ⟨source, h⟩
    cases hfind : n.bounds.offsets.find? fun x => !x.isFinite with
    | none => simpa using hfind
    | some x =>
      rw [vertexShader_of_find?_eq_some hn hfind] at h
      cases h
  · exact vertexShader_of_forall_isFinite hn

/-- Only the first offset that overflowed is ever at fault. -/
theorem vertexShader_eq_error_iff (hn : (s.resolve resolver).result = .ok n) {e : Symbol.Error} :
    (s.vertexShader resolver).result = .error e ↔
      ∃ x, n.bounds.offsets.find? (fun x => !x.isFinite) = some x ∧ x.isInfinite ∧
        e = .nonFinite .offset x := by
  constructor
  · intro h
    cases hfind : n.bounds.offsets.find? fun x => !x.isFinite with
    | none =>
      obtain ⟨source, hsource⟩ := vertexShader_of_forall_isFinite hn (by simpa using hfind)
      rw [hsource] at h
      cases h
    | some x =>
      rw [vertexShader_of_find?_eq_some hn hfind] at h
      have hfinite : x.isFinite = false := by simpa using List.find?_some hfind
      have hnan := Symbol.isNaN_offsets (isFinite_of_resolve hn) x (List.mem_of_find?_eq_some hfind)
      exact ⟨x, rfl, Binary.isInfinite_of_not_isFinite hfinite hnan, (Except.error.inj h).symm⟩
  · rintro ⟨x, hfind, -, rfl⟩
    exact vertexShader_of_find?_eq_some hn hfind

/-- A style fails to have a source exactly if it fails to resolve or an offset of its bounds
overflows, which is the error then. It has one around the anchor and in the inner quarter of the
range. -/
theorem vertexShader_failure (resolver : Color.Resolver) (s : Style) :
    (∀ e, (s.resolve resolver).result = .error e →
      (s.vertexShader resolver).result = .error e) ∧
    ∀ n, (s.resolve resolver).result = .ok n →
      ((∃ source, (s.vertexShader resolver).result = .ok source) ↔
        ∀ x ∈ n.bounds.offsets, x.isFinite) ∧
      (∀ e, (s.vertexShader resolver).result = .error e ↔
        ∃ x, n.bounds.offsets.find? (fun x => !x.isFinite) = some x ∧ x.isInfinite ∧
          e = .nonFinite .offset x) ∧
      (n.offset.x.toRat = 0 ∧ n.offset.y.toRat = 0 ∨
          (∀ x ∈ [n.size.x, n.size.y, n.offset.x, n.offset.y], |x.toRat| ≤ 2 ^ 1022) →
        ∃ source, (s.vertexShader resolver).result = .ok source) := by
  refine ⟨fun e => vertexShader_of_resolve_error, fun n hn => ⟨exists_source_iff hn,
    fun e => vertexShader_eq_error_iff hn, fun h => ?_⟩⟩
  have hfinite := isFinite_of_resolve hn
  refine vertexShader_of_forall_isFinite hn (Symbol.forall_mem_offsets ?_ ?_)
  · refine Symbol.isFinite_sides (hfinite (.size, n.size.x) (by simp [Symbol.numbers]))
      (hfinite (.offset, n.offset.x) (by simp [Symbol.numbers])) ?_
    exact h.imp (·.1) fun h => ⟨h _ (by simp), h _ (by simp)⟩
  · refine Symbol.isFinite_sides (hfinite (.size, n.size.y) (by simp [Symbol.numbers]))
      (hfinite (.offset, n.offset.y) (by simp [Symbol.numbers])) ?_
    exact h.imp (·.2) fun h => ⟨h _ (by simp), h _ (by simp)⟩

theorem vertexShader_failure_of_overflow :
    let s : Style := { ofSize (.square 1e308) with offset := some ⟨1.5e308, 0⟩ }
    (s.vertexShader .css).result = .error (.nonFinite .offset (.infinity false)) := by
  intro s
  have hresolve : (s.resolve .css).result =
      .ok ⟨.splat 1e308, false, ⟨1.5e308, 0⟩, .full, 1, .white⟩ := by decide +kernel
  obtain ⟨-, hresolved⟩ := vertexShader_failure .css s
  obtain ⟨-, herror, -⟩ := hresolved _ hresolve
  exact (herror _).mpr ⟨.infinity false, by decide +kernel, by decide +kernel, rfl⟩

end Style

end PointSymbol
