import PointSymbol.Color.Paint
import PointSymbol.Proofs.Color.Parse

/-!
# Ranges of text colors

Hex digits, clamped components and keywords all give an alpha between zero and one. The channels of
a color text are therefore in range, and stay so when they are divided by 255.
-/

namespace PointSymbol.Color

variable {cs : List Char} {c : Rgba}

/-! ## Alpha -/

theorem unit_zero : (0 : Double) ≤ 0 ∧ (0 : Double) ≤ 1 := by decide +kernel

theorem unit_one : (0 : Double) ≤ 1 ∧ (1 : Double) ≤ 1 := by decide +kernel

theorem unit_of_isNearest {x : Double} {q : ℚ} (h : x.IsNearest q) (hlow : 0 ≤ q) (hhigh : q ≤ 1) :
    0 ≤ x ∧ x ≤ 1 := by
  have hzero := byte_le_toRat (n := 0) h (Nat.zero_le 255) (by exact_mod_cast hlow)
  have hone := toRat_le_byte (n := 1) h (by decide) (by exact_mod_cast hhigh)
  exact unit_iff.mpr ⟨h.isNaN, by exact_mod_cast hzero, by exact_mod_cast hone⟩

theorem unit_of_hexForm (h : HexForm c cs) : 0 ≤ c.alpha ∧ c.alpha ≤ 1 := by
  cases h with
  | solid _ halpha =>
    rw [halpha]
    exact unit_one
  | @alpha _ k hbytes _ hnearest =>
    have hk : (k : ℚ) ≤ 255 := by
      exact_mod_cast Nat.le_of_lt_succ (lt_of_hexBytes hbytes k (by simp))
    apply unit_of_isNearest hnearest
    · positivity
    · linarith

theorem unit_of_isAlpha {x a : Double} (hx : x.isNaN = false) (h : IsAlpha x a) :
    0 ≤ a ∧ a ≤ 1 := by
  rcases h with ⟨-, rfl⟩ | ⟨-, rfl⟩ | ⟨hzero, hone, rfl⟩
  · exact unit_zero
  · exact unit_one
  · exact unit_iff.mpr ⟨hx, hzero, hone⟩

theorem unit_of_functionForm (h : FunctionForm c cs) : 0 ≤ c.alpha ∧ c.alpha ≤ 1 := by
  cases h with
  | solid _ _ _ _ halpha =>
    rw [halpha]
    exact unit_one
  | alpha hcall _ _ _ halpha =>
    obtain ⟨args, -, hparts⟩ := (call_iff (by simp)).mp hcall
    have hfinite := isFinite_of_forall₂ hparts
    exact unit_of_isAlpha (Binary.isNaN_of_isFinite (hfinite _ (by simp))) halpha

theorem unit_of_keywordForm (h : KeywordForm c cs) : 0 ≤ c.alpha ∧ c.alpha ≤ 1 := by
  cases h with
  | transparent hcolor =>
    rw [hcolor]
    exact unit_zero
  | named hmem =>
    rw [Keyword.alpha_of_mem_table hmem]
    exact unit_one

theorem unit_of_parse {text : String} (h : Rgba.parse text = .ok c) :
    0 ≤ c.alpha ∧ c.alpha ≤ 1 := by
  rcases forms_of_parse h with h | h | h
  · exact unit_of_hexForm h
  · exact unit_of_functionForm h
  · exact unit_of_keywordForm h

/-! ## Channels -/

/-- Finite channels that are integers up to 255, and up to one after normalization. -/
structure Channels.InRange (c : Channels) : Prop where
  isFinite : ∀ x ∈ c.toList, x.isFinite
  byte : ∀ x ∈ [c.red, c.green, c.blue], ∃ n : ℕ, n ≤ 255 ∧ x.toRat = n
  unit : ∀ x ∈ c.normalized.toList, 0 ≤ x ∧ x ≤ 1

/-- A byte divided by 255 is the number nearest to a fraction of one. -/
theorem unit_div {n : ℕ} (hn : n ≤ 255) :
    0 ≤ (Binary.ofNat n / 255 : Double) ∧ (Binary.ofNat n / 255 : Double) ≤ 1 := by
  have hlow : 0 ≤ (n : ℚ) / 255 := by positivity
  have hhigh : (n : ℚ) / 255 ≤ 1 := by
    rw [div_le_one (by norm_num)]
    exact_mod_cast hn
  have h255 : (255 : Double).isFinite := isFinite_byte le_rfl
  have hpos : 0 < (255 : Double).units := by decide +kernel
  have hnearest := Binary.isNearest_div (isFinite_byte hn) h255 hpos
  rw [toRat_byte hn, toRat_double_255] at hnearest
  exact unit_of_isNearest hnearest hlow hhigh

theorem inRange_channels (h : 0 ≤ c.alpha ∧ c.alpha ≤ 1) : c.channels.InRange := by
  have hbyte (b : UInt8) : b.toNat ≤ 255 := Nat.le_of_lt_succ b.toNat_lt
  constructor
  · intro x hx
    simp only [Rgba.channels, Channels.toList, List.mem_cons, List.not_mem_nil, or_false] at hx
    rcases hx with rfl | rfl | rfl | rfl
    · exact isFinite_byte (hbyte _)
    · exact isFinite_byte (hbyte _)
    · exact isFinite_byte (hbyte _)
    · exact isFinite_of_unit h
  · intro x hx
    simp only [Rgba.channels, List.mem_cons, List.not_mem_nil, or_false] at hx
    rcases hx with rfl | rfl | rfl
    · exact ⟨_, hbyte _, toRat_byte (hbyte _)⟩
    · exact ⟨_, hbyte _, toRat_byte (hbyte _)⟩
    · exact ⟨_, hbyte _, toRat_byte (hbyte _)⟩
  · intro x hx
    simp only [Rgba.channels, Channels.normalized, Channels.toList, List.mem_cons,
      List.not_mem_nil, or_false] at hx
    rcases hx with rfl | rfl | rfl | rfl
    · exact unit_div (hbyte _)
    · exact unit_div (hbyte _)
    · exact unit_div (hbyte _)
    · exact h

theorem css_of_parse {text : String} (h : Rgba.parse text = .ok c) :
    Resolver.css text = .ok c.channels ∧ c.channels.InRange := by
  constructor
  · rw [Resolver.css, h]
    rfl
  · exact inRange_channels (unit_of_parse h)

theorem inRange_of_css {text : String} {channels : Channels}
    (h : Resolver.css text = .ok channels) : channels.InRange := by
  cases hparse : Rgba.parse text with
  | error e =>
    rw [Resolver.css, hparse] at h
    cases h
  | ok c =>
    obtain ⟨hcss, hrange⟩ := css_of_parse hparse
    obtain rfl := Except.ok.inj (hcss.symm.trans h)
    exact hrange

end PointSymbol.Color
