import PointSymbol.Proofs.Quad.Corner
import PointSymbol.Proofs.Shader.Generation
import PointSymbol.Proofs.Shader.Program

/-!
# Selecting corners

The source of a symbol reads back as a program that runs for every index of a vertex. It takes the
offsets and texture coordinates of the corner with the index, and hands opacity and color on as they
are.
-/

namespace PointSymbol
open Glsl (Arithmetic Env Expr Inputs Program SingleAssignment Statement Value)
open Quad (Corner)

/-- The values that the main function computes for a vertex at the corner. -/
structure Symbol.Draws {Matrix : Type} (s : Symbol) (c : Corner) (env : Env Matrix) : Prop where
  offsetX : env "offsetX" = some (.float (s.bounds.cornerOffset c).x)
  offsetY : env "offsetY" = some (.float (s.bounds.cornerOffset c).y)
  texCoord : env "v_texCoord" = some (.vec2 (s.bounds.cornerTexCoord c))
  opacity : env "v_opacity" = some (.float s.opacity)
  color : env "v_color" = some (.vec4 ⟨s.color.normalized.red, s.color.normalized.green,
    s.color.normalized.blue, s.color.normalized.alpha⟩)

namespace Shader

def Span.pick (s : Span) (low : Bool) : Double := if low then s.low.value else s.high.value

section Conditions
variable {Matrix : Type} {A : Arithmetic Matrix} {env : Env Matrix} {i : Single}

theorem eval_atCorner (h : env "a_index" = some (.float (i.convert .double))) (c : Corner) :
    (atCorner c).eval A env = some (.bool (i == .ofNat c.index)) := by
  have hwidens : Binary.Format.single.Widens .double := ⟨by decide, by decide⟩
  have hbeq := Binary.convert_beq_ofNat hwidens c.index_bounds.1 c.index_bounds.2 i
  have hindex : (Expr.name Interface.index.name).eval A env = some (.float (i.convert .double)) := h
  rw [atCorner, Expr.eval, hindex, ← hbeq]
  rfl

theorem eval_foldl_or (h : env "a_index" = some (.float (i.convert .double))) (cs : List Corner)
    {e : Expr} {b : Bool} (he : e.eval A env = some (.bool b)) :
    (cs.foldl (fun e c => .or e (atCorner c)) e).eval A env =
      some (.bool (b || cs.any fun c => i == .ofNat c.index)) := by
  -- the condition of the corners before is the accumulator
  induction cs generalizing e b with
  | nil => rw [List.foldl_nil, he, List.any_nil, Bool.or_false]
  | cons c cs ih =>
    have hor : (Expr.or e (atCorner c)).eval A env =
        some (.bool (b || i == .ofNat c.index)) := by
      rw [Expr.eval, he, eval_atCorner h]
      rfl
    rw [List.foldl_cons, ih hor, List.any_cons, Bool.or_assoc]

theorem eval_minSide (h : env "a_index" = some (.float (i.convert .double)))
    {onMin : Corner → Bool} (hne : Corner.all.filter onMin ≠ []) (hmax : onMin .maxMax = false) :
    (minSide onMin hne).eval A env = some (.bool (onMin (Corner.drawn i))) := by
  have hany := Corner.any_beq_index hmax i
  rw [← List.cons_head_tail hne, List.any_cons] at hany
  rw [minSide, eval_foldl_or h _ (eval_atCorner h _), hany]

theorem eval_onMinX (h : env "a_index" = some (.float (i.convert .double))) :
    onMinX.eval A env = some (.bool (Corner.drawn i).isMinX) :=
  eval_minSide h _ rfl

theorem eval_onMinY (h : env "a_index" = some (.float (i.convert .double))) :
    onMinY.eval A env = some (.bool (Corner.drawn i).isMinY) :=
  eval_minSide h _ rfl

theorem eval_select {condition : Expr} {low : Bool} (h : condition.eval A env = some (.bool low))
    (s : Span) : (s.select condition).eval A env = some (.float (s.pick low)) := by
  rw [Span.select, Expr.eval, h]
  cases low <;> rfl

end Conditions

namespace Baked

/-! ## Runs -/

section Runs
variable {Matrix : Type} {A : Arithmetic Matrix} {inputs : Inputs Matrix} {env : Env Matrix}
variable {b : Baked} {i : Single}

theorem value_of_mem (hrun : b.program.run A inputs = some env) {s : Statement} (hs : s ∈ b.body)
    {x : Value Matrix} (hx : s.value.eval A env = some x) : env s.target = some x := by
  obtain ⟨y, hy, htarget⟩ := Statement.equation_of_execAll hrun b.singleAssignment_body hs
  rw [htarget, ← hy, hx]

theorem targets_body (b : Baked) : b.body.map Statement.target =
    ["offsetMatrix", "offsetX", "offsetY", "offsets", "gl_Position", "u", "v", "v_texCoord",
      "v_opacity", "v_color"] := rfl

theorem value_index (hrun : b.program.run A inputs = some env)
    (hi : inputs.float "a_index" = i.convert .double) :
    env "a_index" = some (.float (i.convert .double)) := by
  have hfree : ∀ s ∈ b.body, "a_index" ≠ s.target := by
    intro s hs heq
    have hmem := List.mem_map_of_mem (f := Statement.target) hs
    rw [targets_body, ← heq] at hmem
    simp at hmem
  have hstart : b.program.start inputs "a_index" = some (.float (inputs.float "a_index")) := by
    obtain ⟨rotates, x, y, u, v, opacity, red, green, blue, alpha⟩ := b
    cases rotates <;> rfl
  rw [Statement.execAll_of_not_mem hrun hfree, ← hi]
  exact hstart

theorem value_offsetX (hrun : b.program.run A inputs = some env)
    (hi : inputs.float "a_index" = i.convert .double) :
    env "offsetX" = some (.float (b.offsetX.pick (Corner.drawn i).isMinX)) :=
  value_of_mem hrun (s := .declare Local.offsetX (b.offsetX.select onMinX)) (by simp [body])
    (eval_select (eval_onMinX (value_index hrun hi)) b.offsetX)

theorem value_offsetY (hrun : b.program.run A inputs = some env)
    (hi : inputs.float "a_index" = i.convert .double) :
    env "offsetY" = some (.float (b.offsetY.pick (Corner.drawn i).isMinY)) :=
  value_of_mem hrun (s := .declare Local.offsetY (b.offsetY.select onMinY)) (by simp [body])
    (eval_select (eval_onMinY (value_index hrun hi)) b.offsetY)

theorem value_texCoord (hrun : b.program.run A inputs = some env)
    (hi : inputs.float "a_index" = i.convert .double) :
    env "v_texCoord" = some (.vec2 ⟨b.texU.pick (Corner.drawn i).isMinX,
      b.texV.pick (Corner.drawn i).isMinY⟩) := by
  have hindex := value_index hrun hi
  have hu : env Local.texU.name = some (.float (b.texU.pick (Corner.drawn i).isMinX)) :=
    value_of_mem hrun (s := .declare Local.texU (b.texU.select onMinX)) (by simp [body])
      (eval_select (eval_onMinX hindex) b.texU)
  have hv : env Local.texV.name = some (.float (b.texV.pick (Corner.drawn i).isMinY)) :=
    value_of_mem hrun (s := .declare Local.texV (b.texV.select onMinY)) (by simp [body])
      (eval_select (eval_onMinY hindex) b.texV)
  have heval : (Expr.vec2 (.name Local.texU.name) (.name Local.texV.name)).eval A env =
      some (.vec2 ⟨b.texU.pick (Corner.drawn i).isMinX, b.texV.pick (Corner.drawn i).isMinY⟩) := by
    rw [Expr.eval, Expr.eval, Expr.eval, hu, hv]
    rfl
  exact value_of_mem hrun (s := .assign Interface.texCoord.name _) (by simp [body]) heval

theorem value_opacity (hrun : b.program.run A inputs = some env) :
    env "v_opacity" = some (.float b.opacity.value) :=
  value_of_mem hrun (s := .assign Interface.opacity.name (.literal b.opacity)) (by simp [body]) rfl

theorem value_color (hrun : b.program.run A inputs = some env) :
    env "v_color" = some (.vec4 ⟨b.red.value, b.green.value, b.blue.value, b.alpha.value⟩) :=
  value_of_mem hrun (s := .assign Interface.color.name
    (.vec4 (.literal b.red) (.literal b.green) (.literal b.blue) (.literal b.alpha)))
    (by simp [body]) rfl

/-- The literals stand for the numbers that the bounds pick from. -/
theorem draws {s : Symbol} (hrun : b.program.run A inputs = some env)
    (hi : inputs.float "a_index" = i.convert .double)
    (hvalues : b.literals.map Glsl.Literal.value = s.bakedNumbers.map Prod.snd) :
    s.Draws (Corner.drawn i) env := by
  simp only [literals, Span.literals, Symbol.bakedNumbers, Symbol.surfaceNumbers,
    Quad.Bounds.offsets, Color.Channels.toList, List.map_cons, List.map_nil, List.cons_append,
    List.nil_append, List.cons.injEq, and_true] at hvalues
  obtain ⟨hxlow, hxhigh, hylow, hyhigh, hulow, huhigh, hvlow, hvhigh, hopacity, hred, hgreen,
    hblue, halpha⟩ := hvalues
  constructor
  · rw [value_offsetX hrun hi, Span.pick, hxlow, hxhigh]
    rfl
  · rw [value_offsetY hrun hi, Span.pick, hylow, hyhigh]
    rfl
  · rw [value_texCoord hrun hi, Span.pick, Span.pick, hulow, huhigh, hvlow, hvhigh]
    rfl
  · rw [value_opacity hrun, hopacity]
  · rw [value_color hrun, hred, hgreen, hblue, halpha]

end Runs

end Baked

end Shader

/-- A vertex with the index of a corner takes what the bounds give that corner, and a vertex with
any other index what they give the last. -/
theorem Style.vertexShader_selects_corner {resolver : Color.Resolver} {s : Style} {source : String}
    (h : (s.vertexShader resolver).result = .ok source) :
    ∃ n p, (s.resolve resolver).result = .ok n ∧ Program.read? source = some p ∧
      ∀ (Matrix : Type) (A : Arithmetic Matrix) (inputs : Inputs Matrix) (i : Single),
        inputs.float "a_index" = i.convert .double →
        ∃ env, p.run A inputs = some env ∧
          (∀ c, Corner.ofIndex i = .ok c → n.Draws c env) ∧
          ∀ e, Corner.ofIndex i = .error e → n.Draws .maxMax env := by
  cases hn : (s.resolve resolver).result with
  | error e =>
    rw [vertexShader_of_resolve_error hn] at h
    cases h
  | ok n =>
    rw [vertexShader_of_resolve hn] at h
    cases hb : n.bake with
    | error e =>
      rw [hb] at h
      cases h
    | ok b =>
      rw [hb] at h
      obtain rfl := Except.ok.inj h
      refine ⟨n, b.program, rfl, Program.read?_text b.wellNamed_program, ?_⟩
      intro Matrix A inputs i hi
      obtain ⟨env, hrun⟩ := Program.exists_run b.wellTyped_program A inputs
      have hdraws := Shader.Baked.draws hrun hi (Symbol.values_of_bake hb).2
      refine ⟨env, hrun, fun c hc => ?_, fun e he => ?_⟩
      · rw [← Corner.drawn_of_eq_ok hc]
        exact hdraws
      · rw [← Corner.drawn_of_eq_error he]
        exact hdraws

/-- The right side of a square is half of it away from the anchor. -/
theorem Style.vertexShader_selects_corner_of_square :
    let A : Arithmetic Unit := ⟨fun _ _ => (), fun _ v => v, fun v _ => v⟩
    let inputs : Inputs Unit :=
      ⟨fun _ => (2 : Single).convert .double, fun _ => .zero, fun _ => ⟨0, 0, 0, 0⟩, fun _ => ()⟩
    ∃ source p env, ((ofSize (.square 2)).vertexShader .css).result = .ok source ∧
      Program.read? source = some p ∧ p.run A inputs = some env ∧
        env "offsetX" = some (.float 1) := by
  intro A inputs
  have hresolve : ((ofSize (.square 2)).resolve .css).result =
      .ok ⟨.splat 2, false, .zero, .full, 1, .white⟩ := by decide +kernel
  obtain ⟨source, hsource⟩ := vertexShader_of_forall_isFinite hresolve (by decide +kernel)
  obtain ⟨n, p, hn, hread, hrun⟩ := vertexShader_selects_corner hsource
  obtain rfl := Except.ok.inj (hresolve.symm.trans hn)
  obtain ⟨env, henv, hcorner, -⟩ := hrun Unit A inputs 2 rfl
  have hdraws := hcorner .maxMax (Corner.ofIndex_index .maxMax)
  have hright : (0 + 2 / 2 : Double) = 1 := by decide +kernel
  exact ⟨source, p, env, hsource, hread, henv, hright ▸ hdraws.offsetX⟩

end PointSymbol
