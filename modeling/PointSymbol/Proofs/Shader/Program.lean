import PointSymbol.Proofs.Glsl.Typing
import PointSymbol.Proofs.Shader.Baking
import PointSymbol.Shader.Source

/-!
# Programs of symbols

The program of a baked symbol has the same names and statements whatever its literals are. It is
well named, well typed and assigns every variable once. Its text determines the baked symbol.
-/

namespace PointSymbol.Shader
open Glsl (Expr Literal Program SingleAssignment Statement)

namespace Baked
variable {b c : Baked}

/-- The symbol with zero for every literal. -/
def blank (rotates : Bool) : Baked :=
  let zero := Glsl.Literal.zero
  let span := ⟨zero, zero⟩
  ⟨rotates, span, span, span, span, zero, zero, zero, zero, zero⟩

/-- The names do not depend on the literals. -/
theorem names_program (b : Baked) : b.program.names = (blank b.rotates).program.names := rfl

theorem wellNamed_program (b : Baked) : b.program.WellNamed := by
  have hblank : ∀ rotates, (blank rotates).program.names.all Glsl.isIdentifier := by decide
  intro n hn
  rw [names_program] at hn
  exact List.all_eq_true.mp (hblank b.rotates) n hn

theorem wellTyped_program (b : Baked) : b.program.WellTyped := by
  obtain ⟨rotates, x, y, u, v, opacity, red, green, blue, alpha⟩ := b
  cases rotates <;> rfl

theorem singleAssignment_body (b : Baked) : SingleAssignment b.body := by
  obtain ⟨rotates, x, y, u, v, opacity, red, green, blue, alpha⟩ := b
  cases rotates <;> exact of_decide_eq_true rfl

/-! ## Recovering the baked symbol -/

theorem eq_of_literals (hrotates : b.rotates = c.rotates) (h : b.literals = c.literals) :
    b = c := by
  obtain ⟨rotates, ⟨xlow, xhigh⟩, ⟨ylow, yhigh⟩, ⟨ulow, uhigh⟩, ⟨vlow, vhigh⟩, opacity, red, green,
    blue, alpha⟩ := b
  obtain ⟨rotates', ⟨xlow', xhigh'⟩, ⟨ylow', yhigh'⟩, ⟨ulow', uhigh'⟩, ⟨vlow', vhigh'⟩, opacity',
    red', green', blue', alpha'⟩ := c
  simp_all [literals, Span.literals]

theorem eq_iff_values : b = c ↔ b.rotates = c.rotates ∧
    b.literals.map Literal.value = c.literals.map Literal.value := by
  constructor
  · rintro rfl
    exact ⟨rfl, rfl⟩
  · rintro ⟨hrotates, hvalues⟩
    exact eq_of_literals hrotates (List.map_injective_iff.mpr Literal.value_injective hvalues)

theorem rotates_of_offsetTransform {rotates rotates' : Bool}
    (h : offsetTransform rotates = offsetTransform rotates') : rotates = rotates' := by
  cases rotates <;> cases rotates' <;> simp_all [offsetTransform]

theorem program_inj : b.program = c.program ↔ b = c := by
  constructor
  · intro h
    have hbody : b.body = c.body := congrArg Program.body h
    simp only [body, Span.select, List.cons.injEq, Statement.declare.injEq,
      Statement.assign.injEq, Expr.select.injEq, Expr.vec4.injEq, Expr.literal.injEq, true_and,
      and_true] at hbody
    obtain ⟨hrotates, ⟨hxlow, hxhigh⟩, ⟨hylow, hyhigh⟩, ⟨hulow, huhigh⟩, ⟨hvlow, hvhigh⟩, hopacity,
      hred, hgreen, hblue, halpha⟩ := hbody
    refine eq_of_literals (rotates_of_offsetTransform hrotates) ?_
    simp only [literals, Span.literals, hxlow, hxhigh, hylow, hyhigh, hulow, huhigh, hvlow, hvhigh,
      hopacity, hred, hgreen, hblue, halpha]
  · rintro rfl
    rfl

/-- Sources with one text have the same literals. -/
theorem text_program_inj : b.program.text = c.program.text ↔ b = c :=
  (Program.text_inj b.wellNamed_program c.wellNamed_program).trans program_inj

end Baked

end PointSymbol.Shader
