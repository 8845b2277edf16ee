import PointSymbol.Proofs.Color.Faults
import PointSymbol.Proofs.Shader.FloatText

/-!
# Colors written with literals

A functional color may name its components by literal texts. Literal texts hold no blank, comma or
letter, so the reader finds the same four numbers again, clamps them and rounds the channels. Bytes
and an alpha in the unit interval come back as they were.
-/

namespace PointSymbol.Color
open Decimal (Plain)
open Shader (floatText)
open Text (Blank Tight)

/-- A functional color with the texts of its components. -/
def callText (r g b a : String) : String :=
  "rgba(" ++ r ++ ", " ++ g ++ ", " ++ b ++ ", " ++ a ++ ")"

/-! ## Characters of literal texts -/

theorem char_of_plain {cs : List Char} (h : Plain cs) :
    ∀ c ∈ cs, c.isDigit ∨ c = '.' ∨ c = '-' := by
  obtain ⟨negative, _, rfl, hwhole, -, -, hfraction, -⟩ := h
  intro c hc
  simp only [List.mem_append, List.mem_cons] at hc
  rcases hc with hsign | hc | rfl | hc
  · cases negative with
    | false => cases hsign
    | true => exact .inr (.inr (List.mem_singleton.mp hsign))
  · exact .inl (hwhole c hc)
  · exact .inr (.inl rfl)
  · exact .inl (hfraction c hc)

theorem toLower_of_plain {cs : List Char} (h : Plain cs) : ∀ c ∈ cs, c.toLower = c := by
  intro c hc
  rcases char_of_plain h c hc with h | rfl | rfl
  · exact Text.toLower_of_isDigit h
  · rfl
  · rfl

/-! ## The text of the call -/

theorem normalForm_eq_self {text : String} (htight : Tight text.toList)
    (hlower : ∀ c ∈ text.toList, c.toLower = c) : normalForm text = text.toList := by
  rw [normalForm, Text.trim_eq_self htight, Text.map_toLower_eq_self hlower]

section Call
variable {r g b a : String}

theorem toList_callText (r g b a : String) : (callText r g b a).toList =
    ['r', 'g', 'b', 'a'] ++ [] ++ '(' :: ([','].intercalate
      [r.toList, ' ' :: g.toList, ' ' :: b.toList, ' ' :: a.toList] ++ [')']) := by
  simp [callText, List.intercalate]

theorem tight_callText (r g b a : String) : Tight (callText r g b a).toList := by
  rw [toList_callText]
  exact (Arguments.mk (.inr rfl) (by simp [Blank])).tight

theorem toLower_of_mem_callText (hr : Plain r.toList) (hg : Plain g.toList) (hb : Plain b.toList)
    (ha : Plain a.toList) : ∀ c ∈ (callText r g b a).toList, c.toLower = c := by
  have hbetween {s : String} (h : s.toList.all fun c => c.toLower == c) :
      ∀ c ∈ s.toList, c.toLower = c := by simpa using h
  intro c hc
  simp only [callText, String.toList_append, List.mem_append] at hc
  rcases hc with (((((((hc | hc) | hc) | hc) | hc) | hc) | hc) | hc) | hc
  · exact hbetween (s := "rgba(") (by decide) c hc
  · exact toLower_of_plain hr c hc
  · exact hbetween (s := ", ") (by decide) c hc
  · exact toLower_of_plain hg c hc
  · exact hbetween (s := ", ") (by decide) c hc
  · exact toLower_of_plain hb c hc
  · exact hbetween (s := ", ") (by decide) c hc
  · exact toLower_of_plain ha c hc
  · exact hbetween (s := ")") (by decide) c hc

theorem normalForm_callText (hr : Plain r.toList) (hg : Plain g.toList) (hb : Plain b.toList)
    (ha : Plain a.toList) : normalForm (callText r g b a) = (callText r g b a).toList :=
  normalForm_eq_self (tight_callText r g b a) (toLower_of_mem_callText hr hg hb ha)

end Call

/-! ## Reading back -/

theorem component_of_floatText {x : Double} {text : String} {before : List Char}
    (hbefore : Blank before) (h : floatText x = .ok text) :
    Component (before ++ text.toList) x := by
  have hfinite : x.isFinite := Shader.exists_floatText_iff.mp ⟨text, h⟩
  obtain ⟨d, hwritten, hd⟩ := Shader.written_of_floatText h
  obtain ⟨hsign, hnearest⟩ := Decimal.toBinary_eq_iff.mp hd
  have hafter : Blank [] := by simp [Blank]
  have hcomponent := Component.mk hbefore hwritten hafter hsign hnearest hfinite
  rwa [List.append_nil] at hcomponent

section Numbers
variable {r g b a : Double} {textR textG textB textA : String}

theorem call_of_floatText (hr : floatText r = .ok textR) (hg : floatText g = .ok textG)
    (hb : floatText b = .ok textB) (ha : floatText a = .ok textA) :
    Call (callText textR textG textB textA).toList [r, g, b, a] := by
  have hnil : Blank [] := by simp [Blank]
  have hspace : Blank [' '] := by
    intro c hc
    rw [List.mem_singleton.mp hc]
    decide
  have hred := component_of_floatText hnil hr
  have hgreen := component_of_floatText hspace hg
  have hblue := component_of_floatText hspace hb
  have halpha := component_of_floatText hspace ha
  rw [toList_callText]
  refine .mk (.inr rfl) hnil (.cons hred (.cons hgreen (.cons hblue (.cons halpha .nil)))) ?_
  intro part hpart
  simp only [List.mem_cons, List.not_mem_nil, or_false] at hpart
  rcases hpart with rfl | rfl | rfl | rfl
  · exact comma_not_mem_of_component hred
  · exact comma_not_mem_of_component hgreen
  · exact comma_not_mem_of_component hblue
  · exact comma_not_mem_of_component halpha

/-- The four numbers are found again, whatever finite numbers they are. -/
theorem parse_callText (hr : floatText r = .ok textR) (hg : floatText g = .ok textG)
    (hb : floatText b = .ok textB) (ha : floatText a = .ok textA) {c : Rgba}
    (hred : IsChannel r c.red) (hgreen : IsChannel g c.green) (hblue : IsChannel b c.blue)
    (halpha : IsAlpha a c.alpha) : Rgba.parse (callText textR textG textB textA) = .ok c := by
  apply parse_of_functionForm
  rw [normalForm_callText (Shader.plain_of_floatText hr) (Shader.plain_of_floatText hg)
    (Shader.plain_of_floatText hb) (Shader.plain_of_floatText ha)]
  exact .alpha (call_of_floatText hr hg hb ha) hred hgreen hblue halpha

end Numbers

theorem isChannel_ofNat (b : UInt8) : IsChannel (.ofNat b.toNat) b := by
  have hle : (b.toNat : ℚ) ≤ 255 := by exact_mod_cast Nat.le_of_lt_succ b.toNat_lt
  rw [IsChannel, toRat_byte (Nat.le_of_lt_succ b.toNat_lt), min_eq_left hle,
    max_eq_right (by positivity), eq_comm, Nat.floor_eq_iff (by positivity)]
  constructor <;> linarith

theorem isAlpha_self {a : Double} (h : 0 ≤ a ∧ a ≤ 1) : IsAlpha a a := by
  obtain ⟨-, hzero, hone⟩ := unit_iff.mp h
  exact .inr (.inr ⟨hzero, hone, rfl⟩)

theorem exists_isChannel {x : Double} (hx : x.isFinite) : ∃ b, IsChannel x b :=
  ⟨_, (channelByte_eq_iff hx).mp rfl⟩

theorem exists_isAlpha {x : Double} (hx : x.isFinite) : ∃ a, IsAlpha x a :=
  ⟨_, (clamp_eq_iff hx).mp rfl⟩

/-- The literal texts of bytes and of an alpha between zero and one read back as they are, the sign
of a zero included. Those of any finite numbers read back as the clamped and rounded color. -/
theorem literals_read_back :
    (∀ (r g b : UInt8) (a : Double), 0 ≤ a → a ≤ 1 → ∃ textR textG textB textA,
      floatText (.ofNat r.toNat) = .ok textR ∧ floatText (.ofNat g.toNat) = .ok textG ∧
      floatText (.ofNat b.toNat) = .ok textB ∧ floatText a = .ok textA ∧
      Rgba.parse ("rgba(" ++ textR ++ ", " ++ textG ++ ", " ++ textB ++ ", " ++ textA ++ ")") =
        .ok ⟨r, g, b, a⟩) ∧
    ∀ r g b a : Double, r.isFinite → g.isFinite → b.isFinite → a.isFinite →
      ∃ textR textG textB textA c,
        floatText r = .ok textR ∧ floatText g = .ok textG ∧ floatText b = .ok textB ∧
        floatText a = .ok textA ∧
        Rgba.parse ("rgba(" ++ textR ++ ", " ++ textG ++ ", " ++ textB ++ ", " ++ textA ++ ")") =
          .ok c ∧
        IsChannel r c.red ∧ IsChannel g c.green ∧ IsChannel b c.blue ∧ IsAlpha a c.alpha := by
  constructor
  · intro r g b a hzero hone
    have hbyte (b : UInt8) := Shader.exists_floatText_iff.mpr
      (isFinite_byte (Nat.le_of_lt_succ b.toNat_lt))
    obtain ⟨textR, hr⟩ := hbyte r
    obtain ⟨textG, hg⟩ := hbyte g
    obtain ⟨textB, hb⟩ := hbyte b
    obtain ⟨textA, ha⟩ := Shader.exists_floatText_iff.mpr (isFinite_of_unit ⟨hzero, hone⟩)
    exact ⟨textR, textG, textB, textA, hr, hg, hb, ha, parse_callText hr hg hb ha
      (isChannel_ofNat r) (isChannel_ofNat g) (isChannel_ofNat b) (isAlpha_self ⟨hzero, hone⟩)⟩
  · intro r g b a hr hg hb ha
    obtain ⟨textR, hr'⟩ := Shader.exists_floatText_iff.mpr hr
    obtain ⟨textG, hg'⟩ := Shader.exists_floatText_iff.mpr hg
    obtain ⟨textB, hb'⟩ := Shader.exists_floatText_iff.mpr hb
    obtain ⟨textA, ha'⟩ := Shader.exists_floatText_iff.mpr ha
    obtain ⟨red, hred⟩ := exists_isChannel hr
    obtain ⟨green, hgreen⟩ := exists_isChannel hg
    obtain ⟨blue, hblue⟩ := exists_isChannel hb
    obtain ⟨alpha, halpha⟩ := exists_isAlpha ha
    exact ⟨textR, textG, textB, textA, ⟨red, green, blue, alpha⟩, hr', hg', hb', ha',
      parse_callText hr' hg' hb' ha' hred hgreen hblue halpha, hred, hgreen, hblue, halpha⟩

theorem literals_read_back_of_negative_zero :
    Rgba.parse "rgba(255.0, 128.0, 0.0, -0.0)" = .ok ⟨255, 128, 0, .zero true⟩ ∧
      ∃ c, Rgba.parse "rgba(-1.0, 300.5, 12.5, 2.0)" = .ok c ∧ IsChannel 12.5 c.blue ∧
        IsAlpha 2 c.alpha := by
  obtain ⟨hbytes, hnumbers⟩ := literals_read_back
  constructor
  · obtain ⟨textR, textG, textB, textA, hr, hg, hb, ha, hparse⟩ :=
      hbytes 255 128 0 (.zero true) (by decide +kernel) (by decide +kernel)
    have h255 : floatText (.ofNat 255) = .ok "255.0" := by decide +kernel
    have h128 : floatText (.ofNat 128) = .ok "128.0" := by decide +kernel
    have h0 : floatText (.ofNat 0) = .ok "0.0" := by decide +kernel
    have hzero : floatText (.zero true) = .ok "-0.0" := by decide +kernel
    obtain rfl := Except.ok.inj (hr.symm.trans h255)
    obtain rfl := Except.ok.inj (hg.symm.trans h128)
    obtain rfl := Except.ok.inj (hb.symm.trans h0)
    obtain rfl := Except.ok.inj (ha.symm.trans hzero)
    exact hparse
  · obtain ⟨textR, textG, textB, textA, c, hr, hg, hb, ha, hparse, -, -, hblue, halpha⟩ :=
      hnumbers (-1) 300.5 12.5 2 (by decide +kernel) (by decide +kernel) (by decide +kernel)
        (by decide +kernel)
    have hminus : floatText (-1) = .ok "-1.0" := by decide +kernel
    have hover : floatText 300.5 = .ok "300.5" := by decide +kernel
    have hhalf : floatText 12.5 = .ok "12.5" := by decide +kernel
    have h2 : floatText 2 = .ok "2.0" := by decide +kernel
    obtain rfl := Except.ok.inj (hr.symm.trans hminus)
    obtain rfl := Except.ok.inj (hg.symm.trans hover)
    obtain rfl := Except.ok.inj (hb.symm.trans hhalf)
    obtain rfl := Except.ok.inj (ha.symm.trans h2)
    exact ⟨c, hparse, hblue, halpha⟩

end PointSymbol.Color
