import PointSymbol.Proofs.Glsl.Typing

/-!
# Scoping of programs

A well typed program whose interface has no name twice declares every name once, and before it uses
the name. The output position of the vertex is there without a declaration.
-/

namespace PointSymbol.Glsl

namespace Statement

def uses : Statement → List String
  | declare _ e => e.names
  | assign n e => n :: e.names

def declared : Statement → List String
  | declare v _ => [v.name]
  | assign _ _ => []

def assigned : Statement → List String
  | declare _ _ => []
  | assign n _ => [n]

end Statement

namespace Program

def globals (p : Program) : List Variable := p.uniforms ++ p.attributes ++ p.varyings

def globalNames (p : Program) : List String := p.globals.map Variable.name

structure WellScoped (p : Program) : Prop where
  declared_once : (p.globalNames ++ p.body.flatMap Statement.declared).Nodup
  declared_before : ∀ before s after, p.body = before ++ s :: after → ∀ n ∈ s.uses,
    n = "gl_Position" ∨ n ∈ p.globalNames ∨ n ∈ before.flatMap Statement.declared

end Program

/-! ## Scopes of checked statements -/

section Scopes
variable {outputs : List Variable} {Γ Γ' : Context} {e : Expr} {t : ExprType} {s : Statement}
variable {body : List Statement} {n : String}

/-- A name that is in scope: it has a value, or it is an output. -/
def InScope (outputs : List Variable) (Γ : Context) (n : String) : Prop :=
  (Γ n).isSome ∨ n ∈ outputs.map Variable.name

theorem Expr.isSome_of_type? (h : e.type? Γ = some t) : ∀ n ∈ e.names, (Γ n).isSome := by
  induction e generalizing t with
  | literal a => simp [names]
  | name m =>
    intro n hn
    rw [List.mem_singleton.mp hn]
    obtain ⟨v, hv, -⟩ := Option.map_eq_some_iff.mp h
    rw [hv]
    rfl
  | vec2 x y ihx ihy =>
    obtain ⟨⟨hx, hy⟩, -⟩ := Option.ite_none_right_eq_some.mp h
    exact List.forall_mem_append.mpr ⟨ihx hx, ihy hy⟩
  | vec4 x y z w ihx ihy ihz ihw =>
    obtain ⟨⟨⟨hx, hy⟩, hz, hw⟩, -⟩ := Option.ite_none_right_eq_some.mp h
    simp only [names, List.forall_mem_append]
    exact ⟨⟨⟨ihx hx, ihy hy⟩, ihz hz⟩, ihw hw⟩
  | extend xy z w ihxy ihz ihw =>
    obtain ⟨⟨hxy, hz, hw⟩, -⟩ := Option.ite_none_right_eq_some.mp h
    simp only [names, List.forall_mem_append]
    exact ⟨⟨ihxy hxy, ihz hz⟩, ihw hw⟩
  | mul a b iha ihb =>
    obtain ⟨⟨ha, -⟩, hb⟩ := Option.ite_none_right_eq_some.mp h
    exact List.forall_mem_append.mpr ⟨iha ha, ihb hb⟩
  | add a b iha ihb | equal a b iha ihb | or a b iha ihb =>
    obtain ⟨⟨ha, hb⟩, -⟩ := Option.ite_none_right_eq_some.mp h
    exact List.forall_mem_append.mpr ⟨iha ha, ihb hb⟩
  | select c a b ihc iha ihb =>
    obtain ⟨⟨hc, hab⟩, ha⟩ := Option.ite_none_right_eq_some.mp h
    simp only [names, List.forall_mem_append]
    exact ⟨⟨ihc hc, iha ha⟩, ihb (hab ▸ ha)⟩

namespace Statement

/-- What a checked statement uses is in scope, what it declares was not, and is from then on. -/
theorem inScope_of_check (h : s.check outputs Γ = some Γ') :
    (∀ n ∈ s.uses, InScope outputs Γ n) ∧ (∀ n ∈ s.declared, ¬InScope outputs Γ n) ∧
      ∀ n, InScope outputs Γ' n ↔ InScope outputs Γ n ∨ n ∈ s.declared := by
  cases s with
  | declare v e =>
    obtain ⟨⟨he, hnew, hout⟩, h⟩ := Option.ite_none_right_eq_some.mp h
    obtain rfl := Option.some.inj h
    refine ⟨fun n hn => .inl (Expr.isSome_of_type? he n hn), ?_, fun n => ?_⟩
    · intro n hn
      rw [List.mem_singleton.mp hn]
      rintro (hsome | hmem)
      · rw [Option.isNone_iff_eq_none.mp hnew] at hsome
        cases hsome
      · exact hout hmem
    · by_cases hn : n = v.name
      · subst hn
        simp [InScope, declared]
      · simp [InScope, declared, hn]
  | assign m e =>
    obtain ⟨v, hv, rfl⟩ := Option.map_eq_some_iff.mp h
    obtain ⟨rfl, he⟩ : v.name = m ∧ e.type? Γ = some (.value v.type) := by
      simpa using List.find?_some hv
    have hout : v.name ∈ outputs.map Variable.name :=
      List.mem_map_of_mem (List.mem_of_find?_eq_some hv)
    refine ⟨?_, by simp [declared], fun n => ?_⟩
    · intro n hn
      rcases List.mem_cons.mp hn with rfl | hn
      · exact .inr hout
      · exact .inl (Expr.isSome_of_type? he n hn)
    · by_cases hn : n = v.name
      · subst hn
        simp [InScope, hout]
      · simp [InScope, declared, Function.update_of_ne hn]

/-- The scope grows with every declaration, so each name is declared once and before its use. -/
theorem inScope_of_checkAll (h : checkAll outputs body Γ = some Γ') :
    (∀ before s after, body = before ++ s :: after → ∀ n ∈ s.uses,
      InScope outputs Γ n ∨ n ∈ before.flatMap declared) ∧
    (body.flatMap declared).Nodup ∧ ∀ n ∈ body.flatMap declared, ¬InScope outputs Γ n := by
  induction body generalizing Γ with
  | nil => simp
  | cons s body ih =>
    rw [checkAll, List.foldlM_cons, Option.bind_eq_bind, Option.bind_eq_some_iff] at h
    obtain ⟨Γ₁, hcheck, hrest⟩ := h
    obtain ⟨huses, hfresh, hgrow⟩ := inScope_of_check hcheck
    obtain ⟨huses', hnodup, hfresh'⟩ := ih hrest
    refine ⟨?_, ?_, ?_⟩
    · intro before s' after hsplit n hn
      cases before with
      | nil =>
        obtain ⟨rfl, -⟩ := List.cons.inj hsplit
        exact .inl (huses n hn)
      | cons s₀ before =>
        -- what is in scope after the first statement was so before it, or it declares it
        obtain ⟨rfl, rfl⟩ := List.cons.inj hsplit
        rcases huses' before s' after rfl n hn with hscope | hbefore
        · rcases (hgrow n).mp hscope with hscope | hdeclared
          · exact .inl hscope
          · exact .inr (by simp [hdeclared])
        · exact .inr (List.mem_append_right _ hbefore)
    · have hself : s.declared.Nodup := by cases s <;> simp [declared]
      rw [List.flatMap_cons, List.nodup_append']
      refine ⟨hself, hnodup, fun n hn hn' => ?_⟩
      exact hfresh' n hn' ((hgrow n).mpr (.inr hn))
    · intro n hn hscope
      rcases List.mem_append.mp hn with hn | hn
      · exact hfresh n hn hscope
      · exact hfresh' n hn ((hgrow n).mpr (.inl hscope))

end Statement

theorem Program.inScope_context {p : Program} :
    InScope p.outputs p.context n ↔ n = "gl_Position" ∨ n ∈ p.globalNames := by
  have hcontext : (p.context n).isSome ↔ n ∈ (p.uniforms ++ p.attributes).map Variable.name := by
    simp [context, inputs, List.mem_map]
  rw [InScope, hcontext, globalNames, globals, outputs]
  simp only [List.map_append, List.map_cons, List.mem_append, List.mem_cons]
  tauto

theorem Program.wellScoped_of_wellTyped {p : Program} (h : p.WellTyped)
    (hglobals : p.globalNames.Nodup) : p.WellScoped := by
  obtain ⟨Γ, hΓ⟩ := Option.isSome_iff_exists.mp h
  obtain ⟨huses, hnodup, hfresh⟩ := Statement.inScope_of_checkAll hΓ
  refine ⟨List.nodup_append'.mpr ⟨hglobals, hnodup, fun n hn hn' => ?_⟩, ?_⟩
  · exact hfresh n hn' (inScope_context.mpr (.inr hn))
  · intro before s after hsplit n hn
    rcases huses before s after hsplit n hn with hscope | hbefore
    · exact (inScope_context.mp hscope).imp_right .inl
    · exact .inr (.inr hbefore)

end Scopes

end PointSymbol.Glsl
