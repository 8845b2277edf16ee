import Mathlib.Logic.Function.Basic
import PointSymbol.Geometry.Vec2
import PointSymbol.Proofs.Glsl.Source

/-!
# Evaluating programs

The statements of the main function run in order, from the values of the uniforms and attributes.
The arithmetic of matrices and vectors is left open. After a run of a program that assigns every
variable once, each of its statements is an equation between the values of its variables.
-/

namespace PointSymbol.Glsl

structure Vec4 where
  x : Double
  y : Double
  z : Double
  w : Double

structure Arithmetic (Matrix : Type) where
  compose : Matrix → Matrix → Matrix
  transform : Matrix → Vec4 → Vec4
  add : Vec4 → Vec4 → Vec4

inductive Value (Matrix : Type) where
  | bool (b : Bool)
  | float (x : Double)
  | vec2 (v : Vec2)
  | vec4 (v : Vec4)
  | mat4 (m : Matrix)

/-- No variable is a condition. -/
inductive ExprType where
  | condition
  | value (t : ValueType)
  deriving DecidableEq

def Value.type {Matrix : Type} : Value Matrix → ExprType
  | bool _ => .condition
  | float _ => .value .float
  | vec2 _ => .value .vec2
  | vec4 _ => .value .vec4
  | mat4 _ => .value .mat4

/-- The variables that have a value. -/
abbrev Env (Matrix : Type) := String → Option (Value Matrix)

section Evaluation
variable {Matrix : Type} (A : Arithmetic Matrix)

/-- Floats are compared as numbers, and a selection goes on with one of its branches. -/
def Expr.eval (env : Env Matrix) : Expr → Option (Value Matrix)
  | literal a => some (.float a.value)
  | name n => env n
  | vec2 x y => do
    match ← x.eval env, ← y.eval env with
    | .float x, .float y => some (.vec2 ⟨x, y⟩)
    | _, _ => none
  | vec4 x y z w => do
    match ← x.eval env, ← y.eval env, ← z.eval env, ← w.eval env with
    | .float x, .float y, .float z, .float w => some (.vec4 ⟨x, y, z, w⟩)
    | _, _, _, _ => none
  | extend xy z w => do
    match ← xy.eval env, ← z.eval env, ← w.eval env with
    | .vec2 v, .float z, .float w => some (.vec4 ⟨v.x, v.y, z, w⟩)
    | _, _, _ => none
  | mul a b => do
    match ← a.eval env, ← b.eval env with
    | .mat4 m, .mat4 n => some (.mat4 (A.compose m n))
    | .mat4 m, .vec4 v => some (.vec4 (A.transform m v))
    | _, _ => none
  | add a b => do
    match ← a.eval env, ← b.eval env with
    | .vec4 v, .vec4 w => some (.vec4 (A.add v w))
    | _, _ => none
  | equal a b => do
    match ← a.eval env, ← b.eval env with
    | .float x, .float y => some (.bool (x == y))
    | _, _ => none
  | or a b => do
    match ← a.eval env, ← b.eval env with
    | .bool p, .bool q => some (.bool (p || q))
    | _, _ => none
  | select c a b => do
    match ← c.eval env with
    | .bool true => a.eval env
    | .bool false => b.eval env
    | _ => none

/-- Declared names are new, and only outputs are assigned to. -/
def Statement.exec (outputs : List Variable) (env : Env Matrix) : Statement → Option (Env Matrix)
  | declare v e => do
    let x ← e.eval A env
    guard (x.type = .value v.type ∧ (env v.name).isNone ∧ v.name ∉ outputs.map Variable.name)
    return Function.update env v.name (some x)
  | assign n e => do
    let x ← e.eval A env
    guard (∃ v ∈ outputs, v.name = n ∧ x.type = .value v.type)
    return Function.update env n (some x)

def Statement.execAll (outputs : List Variable) (body : List Statement) (env : Env Matrix) :
    Option (Env Matrix) :=
  body.foldlM (fun env s => s.exec A outputs env) env

/-- What the surroundings hand to the main function. -/
structure Inputs (Matrix : Type) where
  float : String → Double
  vec2 : String → Vec2
  vec4 : String → Vec4
  mat4 : String → Matrix

def Inputs.value (inputs : Inputs Matrix) (v : Variable) : Value Matrix :=
  match v.type with
  | .float => .float (inputs.float v.name)
  | .vec2 => .vec2 (inputs.vec2 v.name)
  | .vec4 => .vec4 (inputs.vec4 v.name)
  | .mat4 => .mat4 (inputs.mat4 v.name)

namespace Program

def inputs (p : Program) : List Variable := p.uniforms ++ p.attributes

def outputs (p : Program) : List Variable := ⟨.vec4, "gl_Position"⟩ :: p.varyings

def start (inputs : Inputs Matrix) (p : Program) : Env Matrix := fun n =>
  (p.inputs.find? fun v => v.name = n).map inputs.value

def run (inputs : Inputs Matrix) (p : Program) : Option (Env Matrix) :=
  Statement.execAll A p.outputs p.body (p.start inputs)

end Program

end Evaluation

/-! ## Single assignment -/

/-- Every variable is assigned once, and before it is used. -/
def SingleAssignment (body : List Statement) : Prop :=
  (∀ s ∈ body, s.target ∉ s.value.names) ∧ body.Pairwise fun s t => t.target ∉ s.names

instance (body : List Statement) : Decidable (SingleAssignment body) :=
  inferInstanceAs (Decidable (_ ∧ _))

section Runs
variable {Matrix : Type} {A : Arithmetic Matrix} {outputs : List Variable} {env env' : Env Matrix}
variable {s : Statement} {body : List Statement} {n : String}

theorem Expr.eval_congr {e : Expr} (h : ∀ n ∈ e.names, env n = env' n) :
    e.eval A env = e.eval A env' := by
  induction e with
  | literal a => rfl
  | name n => exact h n (by simp [names])
  | vec2 a b iha ihb | mul a b iha ihb | add a b iha ihb | equal a b iha ihb | or a b iha ihb =>
    simp only [names, List.forall_mem_append] at h
    simp only [eval, iha h.1, ihb h.2]
  | vec4 x y z w ihx ihy ihz ihw =>
    simp only [names, List.forall_mem_append] at h
    simp only [eval, ihx h.1.1.1, ihy h.1.1.2, ihz h.1.2, ihw h.2]
  | extend a b c iha ihb ihc | select a b c iha ihb ihc =>
    simp only [names, List.forall_mem_append] at h
    simp only [eval, iha h.1.1, ihb h.1.2, ihc h.2]

namespace Statement

theorem execAll_cons (s : Statement) (body : List Statement) (env : Env Matrix) :
    execAll A outputs (s :: body) env = (s.exec A outputs env).bind (execAll A outputs body) := by
  rw [execAll, List.foldlM_cons]
  rfl

theorem exec_eq_some (h : s.exec A outputs env = some env') :
    ∃ x, s.value.eval A env = some x ∧ env' = Function.update env s.target (some x) := by
  cases s with
  | declare v e | assign n e =>
    simp only [exec, Option.bind_eq_bind, Option.bind_eq_some_iff] at h
    obtain ⟨x, hx, -, -, h⟩ := h
    exact ⟨x, hx, (Option.some.inj h).symm⟩

/-- A run leaves the variables alone that it does not assign to. -/
theorem execAll_of_not_mem (h : execAll A outputs body env = some env')
    (hn : ∀ s ∈ body, n ≠ s.target) : env' n = env n := by
  induction body generalizing env with
  | nil =>
    obtain rfl := Option.some.inj h
    rfl
  | cons s body ih =>
    rw [execAll_cons, Option.bind_eq_some_iff] at h
    obtain ⟨env₁, hexec, hrun⟩ := h
    obtain ⟨x, -, rfl⟩ := exec_eq_some hexec
    rw [ih hrun fun t ht => hn t (by simp [ht]), Function.update_of_ne (hn s (by simp))]

/-- In the end every statement holds as an equation. -/
theorem equation_of_execAll (h : execAll A outputs body env = some env')
    (hbody : SingleAssignment body) (hs : s ∈ body) :
    ∃ x, s.value.eval A env' = some x ∧ env' s.target = some x := by
  induction body generalizing env with
  | nil => cases hs
  | cons t body ih =>
    obtain ⟨hself, hlater⟩ := hbody
    rw [List.pairwise_cons] at hlater
    rw [execAll_cons, Option.bind_eq_some_iff] at h
    obtain ⟨env₁, hexec, hrun⟩ := h
    rcases List.mem_cons.mp hs with rfl | hs
    · obtain ⟨x, hx, rfl⟩ := exec_eq_some hexec
      have hkeep (n : String) (hn : n ∈ s.names) :
          env' n = Function.update env s.target (some x) n :=
        execAll_of_not_mem hrun fun t ht heq => hlater.1 t ht (heq ▸ hn)
      refine ⟨x, ?_, ?_⟩
      · rw [← hx]
        refine Expr.eval_congr fun n hn => ?_
        have hne : n ≠ s.target := fun heq => hself s (by simp) (heq ▸ hn)
        rw [hkeep n (List.mem_cons_of_mem _ hn), Function.update_of_ne hne]
      · rw [hkeep s.target (by simp [names]), Function.update_self]
    · exact ih hrun ⟨fun u hu => hself u (by simp [hu]), hlater.2⟩ hs

end Statement

end Runs

end PointSymbol.Glsl
