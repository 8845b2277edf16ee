import PointSymbol.Proofs.Glsl.Runs
import PointSymbol.Proofs.Glsl.Scoping
import PointSymbol.Proofs.Shader.Generation
import PointSymbol.Proofs.Shader.Program
import PointSymbol.Proofs.Symbol.FirstFault

/-!
# Well-formed sources

Whatever the style and the resolver are, a source is plain ASCII, its numbers are float literals, it
declares the interface and nothing else, and every name in its main function is in scope.
-/

namespace PointSymbol
open Glsl (Expr IsRun Program Statement)

namespace Shader

/-- The program declares the interface of the shader and no other global variable. -/
structure Interface.DeclaredBy (p : Program) (rotates : Bool) : Prop where
  attributes : p.attributes = [position, index]
  uniforms : p.uniforms =
    [projectionMatrix, offsetScaleMatrix] ++ if rotates then [offsetRotateMatrix] else []
  varyings : p.varyings = [texCoord, opacity, color]

namespace Baked
variable (b : Baked)

theorem nodup_globalNames : b.program.globalNames.Nodup := by
  have hblank : ∀ rotates, (blank rotates).program.globalNames.Nodup := by decide
  exact hblank b.rotates

theorem wellScoped_program : b.program.WellScoped :=
  Program.wellScoped_of_wellTyped b.wellTyped_program b.nodup_globalNames

end Baked

end Shader

/-- No style, color text or resolver can break a source. -/
theorem Style.vertexShader_wellFormed {resolver : Color.Resolver} {s : Style} {source : String}
    (h : (s.vertexShader resolver).result = .ok source) :
    (∀ c ∈ source.toList, c.toNat < 128) ∧
    (∀ run, IsRun run source.toList → run.head?.any Char.isDigit → Decimal.PlainDigits run) ∧
    ∃ p, Program.read? source = some p ∧
      p.attributes = [⟨.vec2, "a_position"⟩, ⟨.float, "a_index"⟩] ∧
      p.uniforms = [⟨.mat4, "u_projectionMatrix"⟩, ⟨.mat4, "u_offsetScaleMatrix"⟩] ++
        (if s.rotatesWithView then [⟨.mat4, "u_offsetRotateMatrix"⟩] else []) ∧
      p.varyings = [⟨.vec2, "v_texCoord"⟩, ⟨.float, "v_opacity"⟩, ⟨.vec4, "v_color"⟩] ∧
      Shader.Interface.DeclaredBy p s.rotatesWithView ∧
      p.WellScoped ∧
      (∀ v ∈ p.varyings, (p.body.flatMap Statement.assigned).count v.name = 1) ∧
      .declare ⟨.mat4, "offsetMatrix"⟩
        (if s.rotatesWithView then
          .mul (.name "u_offsetScaleMatrix") (.name "u_offsetRotateMatrix")
        else .name "u_offsetScaleMatrix") ∈ p.body := by
  obtain ⟨n, b, hn, hb, rfl⟩ := exists_baked h
  obtain ⟨size, sides, color, -, -, -, rfl⟩ := exists_filled_of_resolve hn
  have hrotates : b.rotates = s.rotatesWithView := (Symbol.values_of_bake hb).1
  have hnamed := b.wellNamed_program
  refine ⟨Program.lt_of_mem_text hnamed, fun run => Program.plainDigits_of_isRun hnamed, b.program,
    Program.read?_text hnamed, rfl, ?_, rfl, ⟨rfl, ?_, rfl⟩, b.wellScoped_program, ?_, ?_⟩
  · rw [← hrotates]
    rfl
  · rw [← hrotates]
    rfl
  · have hcount : ∀ v ∈ Shader.Interface.varyings,
        ["gl_Position", "v_texCoord", "v_opacity", "v_color"].count v.name = 1 := by decide
    exact hcount
  · rw [← hrotates]
    exact List.mem_cons_self

/-- The text of a color does not reach the source. -/
theorem Style.vertexShader_wellFormed_of_statement_text :
    let s : Style := ⟨some (.square 2), true, none, none, none, some (.text "0; v_color = a")⟩
    let resolver : Color.Resolver := fun _ => .ok ⟨1e300, 0.1, -1e-7, 1⟩
    ∃ source p, (s.vertexShader resolver).result = .ok source ∧
      (∀ c ∈ source.toList, c.toNat < 128) ∧ Program.read? source = some p ∧
      Shader.Interface.offsetRotateMatrix ∈ p.uniforms ∧ p.WellScoped := by
  intro s resolver
  have hresolve : (s.resolve resolver).result =
      .ok ⟨.splat 2, true, .zero, .full, 1, ⟨1e300, 0.1, -1e-7, 1⟩⟩ := by decide +kernel
  obtain ⟨source, hsource⟩ := vertexShader_of_forall_isFinite hresolve (by decide +kernel)
  obtain ⟨hascii, -, p, hread, -, huniforms, -, -, hscoped, -⟩ := vertexShader_wellFormed hsource
  have hmem : Shader.Interface.offsetRotateMatrix ∈ p.uniforms := by
    rw [huniforms]
    decide
  exact ⟨source, p, hsource, hascii, hread, hmem, hscoped⟩

end PointSymbol
