import PointSymbol.Proofs.Shader.Generation
import PointSymbol.Proofs.Symbol.FirstFault

/-!
# Normal forms of styles

A style spells a symbol if every field of it gives the value of the symbol, in whatever form: a
square or an extent, a value or the default, a color text or its channels. Styles that spell one
symbol resolve alike and have the same source. `Symbol.style` is the spelling that leaves nothing
open and asks no resolver.
-/

namespace PointSymbol
open Color (Paint Resolver)

/-- The value of a field that may be left open. -/
inductive Choice {α : Type} (default : α) : Option α → α → Prop
  | unset : Choice default none default
  | set (a : α) : Choice default (some a) a

theorem choice_iff {α : Type} {default a : α} {field : Option α} :
    Choice default field a ↔ a = field.getD default := by
  cases field with
  | none =>
    constructor
    · intro h
      cases h
      rfl
    · intro h
      rw [h]
      exact .unset
  | some b =>
    constructor
    · intro h
      cases h
      rfl
    · intro h
      rw [h]
      exact .set b

namespace Style

structure Spells (resolver : Resolver) (s : Style) (n : Symbol) : Prop where
  size : ∃ size, s.size = some size ∧ size.Gives n.size
  rotatesWithView : s.rotatesWithView = n.rotatesWithView
  offset : Choice ⟨0, 0⟩ s.offset n.offset
  textureCoord : Choice ⟨0, 0, 1, 1⟩ s.textureCoord n.textureCoord
  opacity : Choice 1 s.opacity n.opacity
  color : resolver.Paints s.color n.color

end Style

/-- The style with every field of the symbol, the size as an extent and the color as channels. -/
def Symbol.style (n : Symbol) : Style where
  size := some (.extent n.size.x n.size.y)
  rotatesWithView := n.rotatesWithView
  offset := some n.offset
  textureCoord := some n.textureCoord
  opacity := some n.opacity
  color := some (.channels n.color)

namespace Style
variable {resolver resolver' : Resolver} {s t : Style} {n : Symbol}

theorem spells_style (resolver : Resolver) (n : Symbol) : n.style.Spells resolver n where
  size := ⟨_, rfl, .extent _ _⟩
  rotatesWithView := rfl
  offset := .set n.offset
  textureCoord := .set n.textureCoord
  opacity := .set n.opacity
  color := .channels n.color

theorem spells_iff : s.Spells resolver n ↔
    ∃ size sides color, s.size = some size ∧ size.Gives sides ∧ resolver.Paints s.color color ∧
      n = s.filled sides color := by
  constructor
  · intro h
    obtain ⟨size, hsize, hsides⟩ := h.size
    refine ⟨size, n.size, n.color, hsize, hsides, h.color, ?_⟩
    obtain ⟨-, hrotates, hoffset, htextureCoord, hopacity, -⟩ := h
    rw [choice_iff] at hoffset htextureCoord hopacity
    rw [filled, ← hoffset, ← htextureCoord, ← hopacity, hrotates]
  · intro h
    obtain ⟨size, sides, color, hsize, hsides, hcolor, hn⟩ := h
    rw [hn]
    exact {
      size := ⟨size, hsize, hsides⟩
      rotatesWithView := rfl
      offset := choice_iff.mpr rfl
      textureCoord := choice_iff.mpr rfl
      opacity := choice_iff.mpr rfl
      color := hcolor }

theorem Spells.result_resolve (h : s.Spells resolver n) :
    (s.resolve resolver).result = n.check := by
  obtain ⟨size, sides, color, hsize, hsides, hcolor, hn⟩ := spells_iff.mp h
  rw [result_resolve_of_paints hsize hsides hcolor, ← hn]

/-- The styles that resolve to a symbol are those that spell it, if its numbers are finite. -/
theorem resolve_eq_ok_iff_spells : (s.resolve resolver).result = .ok n ↔
    s.Spells resolver n ∧ ∀ p ∈ n.numbers, p.2.isFinite := by
  constructor
  · intro h
    exact ⟨spells_iff.mpr (exists_filled_of_resolve h), isFinite_of_resolve h⟩
  · intro h
    obtain ⟨hspells, hfinite⟩ := h
    rw [hspells.result_resolve]
    exact Symbol.check_eq_ok_iff.mpr ⟨rfl, hfinite⟩

theorem Spells.result_vertexShader (h : s.Spells resolver n) :
    (s.vertexShader resolver).result =
      n.check >>= fun n => n.bake.map fun b => b.program.text := by
  rw [Style.result_vertexShader, h.result_resolve]

theorem resolve_style (resolver : Resolver) (h : ∀ p ∈ n.numbers, p.2.isFinite) :
    n.style.resolve resolver = ⟨.ok n, []⟩ := by
  have hcheck : n.check = .ok n := Symbol.check_eq_ok_iff.mpr ⟨rfl, h⟩
  have hresolve : n.style.resolve resolver = ⟨n.check, []⟩ := rfl
  rw [hresolve, hcheck]

/-- A style that resolves has a normal form, the style of its symbol. The normal form resolves to
the same symbol and has the same source or error under every resolver, and of the records only that
of the color text is lost. All spellings of a symbol agree in both respects. -/
theorem vertexShader_normal_form :
    (∀ (resolver : Resolver) (s : Style) (n : Symbol), (s.resolve resolver).result = .ok n →
      s.Spells resolver n ∧ ∀ resolver' : Resolver,
        n.style.resolve resolver' = ⟨.ok n, []⟩ ∧
        (n.style.vertexShader resolver').result = (s.vertexShader resolver).result ∧
        (s.vertexShader resolver).records =
          (s.resolve resolver).records ++ (n.style.vertexShader resolver').records) ∧
    ∀ (resolver resolver' : Resolver) (s t : Style) (n : Symbol),
      s.Spells resolver n → t.Spells resolver' n →
        (s.resolve resolver).result = (t.resolve resolver').result ∧
        (s.vertexShader resolver).result = (t.vertexShader resolver').result := by
  constructor
  · intro resolver s n h
    obtain ⟨hspells, hfinite⟩ := resolve_eq_ok_iff_spells.mp h
    refine ⟨hspells, fun resolver' => ?_⟩
    have hstyle := resolve_style resolver' hfinite
    have hok : (n.style.resolve resolver').result = .ok n := by rw [hstyle]
    refine ⟨hstyle, ?_, ?_⟩
    · rw [(spells_style resolver' n).result_vertexShader, hspells.result_vertexShader]
    · rw [vertexShader, vertexShader, Logged.records_bind_of_ok h, Logged.records_bind_of_ok hok,
        hstyle, List.nil_append]
  · intro resolver resolver' s t n hs ht
    constructor
    · rw [hs.result_resolve, ht.result_resolve]
    · rw [hs.result_vertexShader, ht.result_vertexShader]

/-- The sides overflow for a square and a color text as they do for the extent and the channels. -/
theorem vertexShader_normal_form_of_overflow :
    let s : Style :=
      ⟨some (.square 1e308), true, some ⟨1.5e308, 0⟩, none, none, some (.text "Navy")⟩
    let t : Style :=
      ⟨some (.extent 1e308 1e308), true, some ⟨1.5e308, 0⟩, some .full, none,
        some (.channels ⟨0, 0, 128, 1⟩)⟩
    let n : Symbol := ⟨⟨1e308, 1e308⟩, true, ⟨1.5e308, 0⟩, ⟨0, 0, 1, 1⟩, 1, ⟨0, 0, 128, 1⟩⟩
    let declining : Resolver := .palette [] (some "no colors")
    (s.resolve .css).result = .ok n ∧ n.style.resolve declining = ⟨.ok n, []⟩ ∧
      (t.vertexShader declining).result = .error (.nonFinite .offset (.infinity false)) := by
  intro s t n declining
  have hresolve : (s.resolve .css).result = .ok n := by decide +kernel
  obtain ⟨hnormal, hspellings⟩ := vertexShader_normal_form
  obtain ⟨hspells, hstyle⟩ := hnormal .css s n hresolve
  have ht : t.Spells declining n :=
    ⟨⟨_, rfl, .extent _ _⟩, rfl, .set _, .set _, .unset, .channels _⟩
  obtain ⟨-, hsame⟩ := hspellings .css declining s t n hspells ht
  refine ⟨hresolve, (hstyle declining).1, ?_⟩
  rw [← hsame]
  exact (vertexShader_eq_error_iff hresolve).mpr
    ⟨.infinity false, by decide +kernel, by decide +kernel, rfl⟩

end Style

end PointSymbol
