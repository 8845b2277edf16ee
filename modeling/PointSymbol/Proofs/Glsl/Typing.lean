import PointSymbol.Proofs.Glsl.Evaluation

/-!
# Types of programs

A type check of statements in order. A program that passes it runs to its end from all inputs.
-/

namespace PointSymbol.Glsl

/-- The types of the variables that have a value. -/
abbrev Context := String → Option ValueType

def Expr.type? (Γ : Context) : Expr → Option ExprType
  | literal _ => some (.value .float)
  | name n => (Γ n).map .value
  | vec2 x y =>
    if x.type? Γ = some (.value .float) ∧ y.type? Γ = some (.value .float) then
      some (.value .vec2)
    else none
  | vec4 x y z w =>
    if (x.type? Γ = some (.value .float) ∧ y.type? Γ = some (.value .float)) ∧
        z.type? Γ = some (.value .float) ∧ w.type? Γ = some (.value .float) then
      some (.value .vec4)
    else none
  | extend xy z w =>
    if xy.type? Γ = some (.value .vec2) ∧ z.type? Γ = some (.value .float) ∧
        w.type? Γ = some (.value .float) then
      some (.value .vec4)
    else none
  | mul a b =>
    if a.type? Γ = some (.value .mat4) ∧
        (b.type? Γ = some (.value .mat4) ∨ b.type? Γ = some (.value .vec4)) then
      b.type? Γ
    else none
  | add a b =>
    if a.type? Γ = some (.value .vec4) ∧ b.type? Γ = some (.value .vec4) then
      some (.value .vec4)
    else none
  | equal a b =>
    if a.type? Γ = some (.value .float) ∧ b.type? Γ = some (.value .float) then some .condition
    else none
  | or a b =>
    if a.type? Γ = some .condition ∧ b.type? Γ = some .condition then some .condition else none
  | select c a b =>
    if c.type? Γ = some .condition ∧ a.type? Γ = b.type? Γ then a.type? Γ else none

namespace Statement

/-- The context after a statement. -/
def check (outputs : List Variable) (Γ : Context) : Statement → Option Context
  | declare v e =>
    if e.type? Γ = some (.value v.type) ∧ (Γ v.name).isNone ∧
        v.name ∉ outputs.map Variable.name then
      some (Function.update Γ v.name (some v.type))
    else none
  | assign n e =>
    (outputs.find? fun v => v.name = n ∧ e.type? Γ = some (.value v.type)).map fun v =>
      Function.update Γ n (some v.type)

def checkAll (outputs : List Variable) (body : List Statement) (Γ : Context) : Option Context :=
  body.foldlM (fun Γ s => s.check outputs Γ) Γ

end Statement

namespace Program

def context (p : Program) : Context := fun n =>
  (p.inputs.find? fun v => v.name = n).map Variable.type

def WellTyped (p : Program) : Bool := (Statement.checkAll p.outputs p.body p.context).isSome

end Program

/-! ## Soundness -/

section Soundness
variable {Matrix : Type} {A : Arithmetic Matrix} {outputs : List Variable} {env : Env Matrix}
variable {Γ Γ' : Context} {e : Expr} {s : Statement} {body : List Statement} {t : ExprType}

def Value.HasType (v : Value Matrix) : ExprType → Prop
  | .condition => ∃ b, v = bool b
  | .value .float => ∃ x, v = float x
  | .value .vec2 => ∃ w, v = vec2 w
  | .value .vec4 => ∃ w, v = vec4 w
  | .value .mat4 => ∃ m, v = mat4 m

theorem Value.hasType_iff {v : Value Matrix} : v.HasType t ↔ v.type = t := by
  rcases t with _ | (_ | _ | _ | _) <;> cases v <;> simp [HasType, type]

/-- The variables that have a value have the types of the context. -/
def Env.Fits (env : Env Matrix) (Γ : Context) : Prop :=
  ∀ n, (env n).map Value.type = (Γ n).map .value

/-- A typed expression has a value, and it is of that type. -/
theorem Expr.exists_eval (henv : env.Fits Γ) (h : e.type? Γ = some t) :
    ∃ v, e.eval A env = some v ∧ v.HasType t := by
  induction e generalizing t with
  | literal a =>
    obtain rfl := Option.some.inj h
    exact ⟨_, rfl, _, rfl⟩
  | name n =>
    have hn : (env n).map Value.type = some t := (henv n).trans h
    obtain ⟨v, hv, ht⟩ := Option.map_eq_some_iff.mp hn
    exact ⟨v, hv, Value.hasType_iff.mpr ht⟩
  | vec2 x y ihx ihy =>
    obtain ⟨⟨hx, hy⟩, h⟩ := Option.ite_none_right_eq_some.mp h
    obtain rfl := Option.some.inj h
    obtain ⟨_, hx, a, rfl⟩ := ihx hx
    obtain ⟨_, hy, b, rfl⟩ := ihy hy
    exact ⟨.vec2 ⟨a, b⟩, by simp [eval, hx, hy], _, rfl⟩
  | vec4 x y z w ihx ihy ihz ihw =>
    obtain ⟨⟨⟨hx, hy⟩, hz, hw⟩, h⟩ := Option.ite_none_right_eq_some.mp h
    obtain rfl := Option.some.inj h
    obtain ⟨_, hx, a, rfl⟩ := ihx hx
    obtain ⟨_, hy, b, rfl⟩ := ihy hy
    obtain ⟨_, hz, c, rfl⟩ := ihz hz
    obtain ⟨_, hw, d, rfl⟩ := ihw hw
    exact ⟨.vec4 ⟨a, b, c, d⟩, by simp [eval, hx, hy, hz, hw], _, rfl⟩
  | extend xy z w ihxy ihz ihw =>
    obtain ⟨⟨hxy, hz, hw⟩, h⟩ := Option.ite_none_right_eq_some.mp h
    obtain rfl := Option.some.inj h
    obtain ⟨_, hxy, v, rfl⟩ := ihxy hxy
    obtain ⟨_, hz, c, rfl⟩ := ihz hz
    obtain ⟨_, hw, d, rfl⟩ := ihw hw
    exact ⟨.vec4 ⟨v.x, v.y, c, d⟩, by simp [eval, hxy, hz, hw], _, rfl⟩
  | mul a b iha ihb =>
    obtain ⟨⟨ha, hb⟩, h⟩ := Option.ite_none_right_eq_some.mp h
    obtain ⟨_, ha, m, rfl⟩ := iha ha
    obtain ⟨v, hv, ht⟩ := ihb h
    rcases hb with hb | hb
    · obtain rfl := Option.some.inj (hb.symm.trans h)
      obtain ⟨n, rfl⟩ := ht
      exact ⟨.mat4 (A.compose m n), by simp [eval, ha, hv], _, rfl⟩
    · obtain rfl := Option.some.inj (hb.symm.trans h)
      obtain ⟨w, rfl⟩ := ht
      exact ⟨.vec4 (A.transform m w), by simp [eval, ha, hv], _, rfl⟩
  | add a b iha ihb =>
    obtain ⟨⟨ha, hb⟩, h⟩ := Option.ite_none_right_eq_some.mp h
    obtain rfl := Option.some.inj h
    obtain ⟨_, ha, v, rfl⟩ := iha ha
    obtain ⟨_, hb, w, rfl⟩ := ihb hb
    exact ⟨.vec4 (A.add v w), by simp [eval, ha, hb], _, rfl⟩
  | equal a b iha ihb =>
    obtain ⟨⟨ha, hb⟩, h⟩ := Option.ite_none_right_eq_some.mp h
    obtain rfl := Option.some.inj h
    obtain ⟨_, ha, x, rfl⟩ := iha ha
    obtain ⟨_, hb, y, rfl⟩ := ihb hb
    exact ⟨.bool (x == y), by simp [eval, ha, hb], _, rfl⟩
  | or a b iha ihb =>
    obtain ⟨⟨ha, hb⟩, h⟩ := Option.ite_none_right_eq_some.mp h
    obtain rfl := Option.some.inj h
    obtain ⟨_, ha, p, rfl⟩ := iha ha
    obtain ⟨_, hb, q, rfl⟩ := ihb hb
    exact ⟨.bool (p || q), by simp [eval, ha, hb], _, rfl⟩
  | select c a b ihc iha ihb =>
    obtain ⟨⟨hc, hab⟩, ha⟩ := Option.ite_none_right_eq_some.mp h
    obtain ⟨_, hc, p, rfl⟩ := ihc hc
    cases p with
    | true =>
      obtain ⟨v, hv, ht⟩ := iha ha
      exact ⟨v, by simp [eval, hc, hv], ht⟩
    | false =>
      obtain ⟨v, hv, ht⟩ := ihb (hab ▸ ha)
      exact ⟨v, by simp [eval, hc, hv], ht⟩

theorem Env.Fits.update (h : env.Fits Γ) {v : Value Matrix} {t : ValueType}
    (hv : v.type = .value t) (n : String) :
    Env.Fits (Function.update env n (some v)) (Function.update Γ n (some t)) := by
  intro m
  by_cases hm : m = n
  · subst hm
    simp [hv]
  · rw [Function.update_of_ne hm, Function.update_of_ne hm, h m]

namespace Statement

theorem exists_exec (henv : env.Fits Γ) (h : s.check outputs Γ = some Γ') :
    ∃ env', s.exec A outputs env = some env' ∧ env'.Fits Γ' := by
  cases s with
  | declare v e =>
    obtain ⟨⟨he, hnew, hout⟩, h⟩ := Option.ite_none_right_eq_some.mp h
    obtain rfl := Option.some.inj h
    obtain ⟨x, hx, ht⟩ := Expr.exists_eval (A := A) henv he
    have ht := Value.hasType_iff.mp ht
    have hfree : (env v.name).isNone := by
      rw [← Option.isNone_map, henv v.name, Option.isNone_map, hnew]
    refine ⟨Function.update env v.name (some x), ?_, henv.update ht v.name⟩
    simp [exec, hx, ht, hfree, hout]
  | assign n e =>
    obtain ⟨v, hv, rfl⟩ := Option.map_eq_some_iff.mp h
    obtain ⟨rfl, he⟩ : v.name = n ∧ e.type? Γ = some (.value v.type) := by
      simpa using List.find?_some hv
    obtain ⟨x, hx, ht⟩ := Expr.exists_eval (A := A) henv he
    have ht := Value.hasType_iff.mp ht
    have hout : ∃ u ∈ outputs, u.name = v.name ∧ x.type = .value u.type :=
      ⟨v, List.mem_of_find?_eq_some hv, rfl, ht⟩
    refine ⟨Function.update env v.name (some x), ?_, henv.update ht v.name⟩
    simp only [exec, hx, Option.bind_eq_bind, Option.bind_some, hout, guard_true]
    rfl

theorem exists_execAll (henv : env.Fits Γ) (h : checkAll outputs body Γ = some Γ') :
    ∃ env', execAll A outputs body env = some env' ∧ env'.Fits Γ' := by
  induction body generalizing env Γ with
  | nil =>
    obtain rfl := Option.some.inj h
    exact ⟨env, rfl, henv⟩
  | cons s body ih =>
    rw [checkAll, List.foldlM_cons, Option.bind_eq_bind, Option.bind_eq_some_iff] at h
    obtain ⟨Γ₁, hcheck, hrest⟩ := h
    obtain ⟨env₁, hexec, henv₁⟩ := exists_exec (A := A) henv hcheck
    obtain ⟨env', hrun, henv'⟩ := ih henv₁ hrest
    refine ⟨env', ?_, henv'⟩
    rw [execAll_cons, hexec, Option.bind_some, hrun]

end Statement

theorem Inputs.type_value (inputs : Inputs Matrix) (v : Variable) :
    (inputs.value v).type = .value v.type := by
  obtain ⟨t, n⟩ := v
  cases t <;> rfl

/-- A typed program runs to its end. -/
theorem Program.exists_run {p : Program} (h : p.WellTyped) (A : Arithmetic Matrix)
    (inputs : Inputs Matrix) : ∃ env, p.run A inputs = some env := by
  have hstart : (p.start inputs).Fits p.context := by
    intro n
    rw [start, context, Option.map_map, Option.map_map]
    congr 1
    funext v
    exact inputs.type_value v
  obtain ⟨Γ, hΓ⟩ := Option.isSome_iff_exists.mp h
  obtain ⟨env, hrun, -⟩ := Statement.exists_execAll (A := A) hstart hΓ
  exact ⟨env, hrun⟩

end Soundness

end PointSymbol.Glsl
