import PointSymbol.Proofs.Color.Range
import PointSymbol.Proofs.Shader.Generation
import PointSymbol.Proofs.Shader.Program
import PointSymbol.Proofs.Symbol.FirstFault

/-!
# Sources of text colors

The color of a text never keeps a style from having a source, unless the text is rejected. In the
source, the literals of the color are numbers between zero and one.
-/

namespace PointSymbol
open Color (Resolver Rgba)
open Glsl (Literal Piece Program Statement)

/-! ## The color statement -/

namespace Shader.Baked

def colorStatement (b : Baked) : Statement :=
  .assign "v_color" (.vec4 (.literal b.red) (.literal b.green) (.literal b.blue) (.literal b.alpha))

def colorLiterals (b : Baked) : List Literal := [b.red, b.green, b.blue, b.alpha]

/-- The color is assigned by one statement. -/
theorem filter_body (b : Baked) :
    b.body.filter (fun s => s.target = "v_color") = [b.colorStatement] := rfl

theorem write_colorStatement (b : Baked) : Glsl.write b.colorStatement.pieces =
    "v_color = vec4(" ++ b.red.text ++ ", " ++ b.green.text ++ ", " ++ b.blue.text ++ ", " ++
      b.alpha.text ++ ");" := by
  let head : List Piece :=
    [.word "v_color", .space, .mark .assign, .space, .word "vec4", .mark .leftParen]
  let comma : List Piece := [.mark .comma, .space]
  let close : List Piece := [.mark .rightParen, .mark .semicolon]
  have hpieces : b.colorStatement.pieces = head ++ b.red.pieces ++ comma ++ b.green.pieces ++
      comma ++ b.blue.pieces ++ comma ++ b.alpha.pieces ++ close := by
    simp [head, comma, close, colorStatement, Statement.pieces, Glsl.spaced, Glsl.Expr.pieces,
      Glsl.Expr.call, Glsl.parenthesized, List.intercalate, Glsl.ValueType.name]
  have hhead : Glsl.write head = "v_color = vec4(" := by decide +kernel
  have hcomma : Glsl.write comma = ", " := by decide +kernel
  have hclose : Glsl.write close = ");" := by decide +kernel
  rw [hpieces]
  simp only [Glsl.write_append, Literal.write_pieces, hhead, hcomma, hclose]

/-- The color statement stands in the source. -/
theorem exists_append_colorStatement (b : Baked) : ∃ before after, b.program.text =
    before ++ ("v_color = vec4(" ++ b.red.text ++ ", " ++ b.green.text ++ ", " ++ b.blue.text ++
      ", " ++ b.alpha.text ++ ");") ++ after := by
  rw [← write_colorStatement]
  exact Program.exists_append_of_mem_body (by simp [program, body, colorStatement,
    Interface.color])

end Shader.Baked

/-! ## Failures -/

namespace Style
variable {resolver : Resolver} {s : Style} {text : String} {x : Double}

theorem paints_text_iff {c : Color.Channels} (ht : s.color = some (.text text)) :
    resolver.Paints s.color c ↔ resolver text = .ok c := by
  rw [ht]
  constructor
  · rintro ⟨⟩
    assumption
  · exact .text

theorem resolve_ne_nonFinite_color (ht : s.color = some (.text text))
    (hfinite : ∀ c, resolver text = .ok c → ∀ y ∈ c.toList, y.isFinite) :
    (s.resolve resolver).result ≠ .error (.nonFinite .color x) := by
  rcases resolve_cases resolver s with
    ⟨-, h⟩ | ⟨size, -, ⟨t, e, -, -, h⟩ | ⟨sides, c, -, hc, h⟩⟩
  · simp [h]
  · simp [h]
  · rw [h, ne_eq, Symbol.check_eq_error_iff]
    rintro ⟨before, field, y, after, hsplit, -, hy, herror⟩
    cases herror
    have hmem : (Symbol.Field.color, x) ∈ (s.filled sides c).numbers := by simp [hsplit]
    have hx : x ∈ c.toList := by
      simpa [Symbol.numbers, filled] using hmem
    have hfinite := hfinite c ((paints_text_iff ht).mp hc) x hx
    rw [Binary.isFinite_eq_false_iff.mpr hy] at hfinite
    cases hfinite

theorem vertexShader_ne_nonFinite_color (ht : s.color = some (.text text))
    (hfinite : ∀ c, resolver text = .ok c → ∀ y ∈ c.toList, y.isFinite) :
    (s.vertexShader resolver).result ≠ .error (.nonFinite .color x) := by
  cases hn : (s.resolve resolver).result with
  | error e =>
    have he : e ≠ .nonFinite .color x := by
      rintro rfl
      exact resolve_ne_nonFinite_color ht hfinite hn
    rw [vertexShader_of_resolve_error hn]
    exact fun h => he (Except.error.inj h)
  | ok n =>
    rw [ne_eq, vertexShader_eq_error_iff hn]
    rintro ⟨y, -, -, herror⟩
    cases herror

/-- The literals of the color stand for the normalized channels. -/
theorem exists_baked_color {source : String} (ht : s.color = some (.text text))
    (h : (s.vertexShader resolver).result = .ok source) :
    ∃ (b : Shader.Baked) (c : Color.Channels), source = b.program.text ∧ resolver text = .ok c ∧
      b.colorLiterals.map Literal.value = c.normalized.toList := by
  obtain ⟨n, b, hn, hb, hsource⟩ := exists_baked h
  obtain ⟨size, sides, c, -, -, hc, rfl⟩ := exists_filled_of_resolve hn
  -- the channels are the last four of the baked numbers
  have hvalues := congrArg (List.drop 9) (Symbol.values_of_bake hb).2
  exact ⟨b, c, hsource, (paints_text_iff ht).mp hc, hvalues⟩

/-- The channels of an accepted color text are in range. So a color text never makes the color the
fault of a style, and in a source the literals of the color read back as numbers from zero to
one. -/
theorem vertexShader_text_color_in_range :
    (∀ text c, Rgba.parse text = .ok c → c.alpha.isNaN = false ∧ 0 ≤ c.alpha ∧ c.alpha ≤ 1 ∧
      ∃ channels, Resolver.css text = .ok channels ∧ channels.InRange) ∧
    ∀ s text, s.color = some (.text text) →
      (∀ x, (vertexShader .css s).result ≠ .error (.nonFinite .color x)) ∧
      ∀ source, (vertexShader .css s).result = .ok source → ∃ p red green blue alpha,
        Program.read? source = some p ∧
        p.body.filter (fun s => s.target = "v_color") = [.assign "v_color"
          (.vec4 (.literal red) (.literal green) (.literal blue) (.literal alpha))] ∧
        (∃ before after, source = before ++ ("v_color = vec4(" ++ red.text ++ ", " ++ green.text ++
          ", " ++ blue.text ++ ", " ++ alpha.text ++ ");") ++ after) ∧
        ∀ a ∈ [red, green, blue, alpha], ∃ d, Decimal.read? a.text.toList = some d ∧
          0 ≤ d.toBinary .double ∧ d.toBinary .double ≤ 1 := by
  constructor
  · intro text c h
    obtain ⟨hlow, hhigh⟩ := Color.unit_of_parse h
    exact ⟨(Color.unit_iff.mp ⟨hlow, hhigh⟩).1, hlow, hhigh, _, Color.css_of_parse h⟩
  intro s text ht
  constructor
  · intro x
    exact vertexShader_ne_nonFinite_color ht fun c hc => (Color.inRange_of_css hc).isFinite
  intro source h
  obtain ⟨b, c, rfl, hc, hvalues⟩ := exists_baked_color ht h
  have hunit := (Color.inRange_of_css hc).unit
  rw [← hvalues] at hunit
  refine ⟨b.program, b.red, b.green, b.blue, b.alpha, Program.read?_text b.wellNamed_program,
    b.filter_body, b.exists_append_colorStatement, fun a ha => ?_⟩
  obtain ⟨d, hread, hd⟩ := a.exists_read?_text
  refine ⟨d, hread, ?_⟩
  rw [hd]
  exact hunit a.value (List.mem_map_of_mem ha)

/-- Components that are out of range are clamped. -/
theorem vertexShader_text_color_in_range_of_clamped :
    let s : Style :=
      { ofSize (.square 2) with color := some (.text " RGBA(300, -4, 12.5, 7e300)") }
    ∃ source p red green blue alpha, (vertexShader .css s).result = .ok source ∧
      Program.read? source = some p ∧
      .assign "v_color" (.vec4 (.literal red) (.literal green) (.literal blue) (.literal alpha)) ∈
        p.body ∧
      ∀ a ∈ [red, green, blue, alpha], ∃ d, Decimal.read? a.text.toList = some d ∧
        0 ≤ d.toBinary .double ∧ d.toBinary .double ≤ 1 := by
  intro s
  have hresolve : (s.resolve .css).result =
      .ok ⟨.splat 2, false, .zero, .full, 1, ⟨255, 0, 13, 1⟩⟩ := by decide +kernel
  obtain ⟨source, hsource⟩ := vertexShader_of_forall_isFinite hresolve (by decide +kernel)
  obtain ⟨-, hstyle⟩ := vertexShader_text_color_in_range
  obtain ⟨-, hliterals⟩ := hstyle s _ rfl
  obtain ⟨p, red, green, blue, alpha, hread, hbody, -, hunit⟩ := hliterals source hsource
  refine ⟨source, p, red, green, blue, alpha, hsource, hread, ?_, hunit⟩
  refine List.mem_of_mem_filter (p := fun s => s.target = "v_color") ?_
  simp [hbody]

end Style

end PointSymbol
