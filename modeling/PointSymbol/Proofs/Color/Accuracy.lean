import Mathlib.Algebra.Order.Group.MinMax
import PointSymbol.Proofs.Binary.Rounding
import PointSymbol.Proofs.Color.Range

/-!
# Accuracy of functional channels

A written decimal is rounded to a binary number, clamped, and rounded again to a byte.
`component_follows_decimal`: the byte is within a half and the first rounding error of the clamped
decimal, is rounded only once where the decimal is a binary number, and grows with the decimal. The
alpha of a decimal in the unit interval is the nearest binary number.
-/

namespace PointSymbol.Color
open Decimal (Written)
open Text (Trims)

/-- A decimal among blanks whose nearest number is finite. -/
structure Spells (part : List Char) (d : Decimal) : Prop where
  written : ∃ core, Trims part core ∧ Written core d
  finite : ∃ x : Double, x.IsNearest d.toRat ∧ x.isFinite

/-- The byte that a part of the arguments gives where it stands for red, green or blue. -/
def GivesByte (part : List Char) (k : UInt8) : Prop :=
  ∃ args c, ∃ i : ℕ, Rgba.readComponents args = .ok c ∧ (args.splitOn ',')[i]? = some part ∧
    [c.red, c.green, c.blue][i]? = some k

/-- The alpha that a part of the arguments gives in the fourth place. -/
def GivesAlpha (part : List Char) (a : Double) : Prop :=
  ∃ args c, Rgba.readComponents args = .ok c ∧ (args.splitOn ',')[3]? = some part ∧ c.alpha = a

/-- The nearest integer, and of two equally near ones the one away from zero. -/
structure IsRounded (k : ℤ) (q : ℚ) : Prop where
  abs_sub_le : ∀ n : ℤ, |k - q| ≤ |n - q|
  away_of_tie : ∀ n : ℤ, |k - q| = |n - q| → |n| ≤ |k|

/-- The byte and the alpha of a decimal. -/
structure Follows (d : Decimal) (k : UInt8) (a : Double) : Prop where
  near : |(k.toNat : ℚ) - max 0 (min d.toRat 255)| ≤ 1 / 2 + 1 / 2 ^ 46
  rounded : (∃ y : Double, y.isFinite ∧ y.toRat = d.toRat) →
    IsRounded k.toNat (max 0 (min d.toRat 255))
  integer : ∀ n : ℕ, n ≤ 255 → d.toRat = n → k.toNat = n
  alpha : 0 ≤ d.toRat → d.toRat ≤ 1 → a.negative = d.negative ∧ a.IsNearest d.toRat

/-! ## Parts of the arguments -/

variable {part : List Char} {d : Decimal} {x : Double} {k : UInt8} {a : Double}

theorem exists_component_of_getElem? {parts : List (List Char)} {xs : List Double} {i : ℕ}
    (h : List.Forall₂ Component parts xs) (hpart : parts[i]? = some part) :
    ∃ x, xs[i]? = some x ∧ Component part x := by
  induction h generalizing i with
  | nil => simp at hpart
  | cons hcomponent _ ih =>
    cases i with
    | zero =>
      obtain rfl := Option.some.inj hpart
      exact ⟨_, rfl, hcomponent⟩
    | succ i => exact ih hpart

/-- A component stands for each of the three colors alike, and for alpha in the fourth place. -/
theorem exists_numbers_of_readComponents {args : List Char} {c : Rgba}
    (h : Rgba.readComponents args = .ok c) :
    ∃ xs, List.Forall₂ Component (args.splitOn ',') xs ∧
      [c.red, c.green, c.blue] = (xs.take 3).map channelByte ∧
      ∀ x, xs[3]? = some x → c.alpha = x.clamp 0 1 := by
  rcases components_of_readComponents h with ⟨r, g, b, hparts, rfl⟩ | ⟨r, g, b, a, hparts, rfl⟩
  · exact ⟨_, hparts, rfl, by simp⟩
  · refine ⟨_, hparts, rfl, fun x hx => ?_⟩
    obtain rfl : a = x := by simpa using hx
    rfl

theorem splitOn_of_component {parts : List (List Char)} {xs : List Double}
    (h : List.Forall₂ Component parts xs) (hne : xs ≠ []) :
    ([','].intercalate parts).splitOn ',' = parts := by
  apply List.splitOn_intercalate ','
  · intro part hpart
    obtain ⟨i, hi⟩ := List.mem_iff_getElem?.mp hpart
    obtain ⟨x, -, hx⟩ := exists_component_of_getElem? h hi
    exact comma_not_mem_of_component hx
  · rintro rfl
    exact hne (List.forall₂_nil_left_iff.mp h)

theorem givesByte_iff : GivesByte part k ↔ ∃ x, Component part x ∧ channelByte x = k := by
  constructor
  · intro h
    obtain ⟨args, c, i, hread, hpart, hbyte⟩ := h
    obtain ⟨xs, hparts, hbytes, -⟩ := exists_numbers_of_readComponents hread
    obtain ⟨x, hx, hcomponent⟩ := exists_component_of_getElem? hparts hpart
    rw [hbytes, List.getElem?_map, List.getElem?_take] at hbyte
    split at hbyte
    · rw [hx] at hbyte
      exact ⟨x, hcomponent, Option.some.inj hbyte⟩
    · cases hbyte
  · intro h
    obtain ⟨x, hpart, rfl⟩ := h
    have hparts : List.Forall₂ Component [part, part, part] [x, x, x] := by simp [hpart]
    have hsplit := splitOn_of_component hparts (by simp)
    rw [← hsplit] at hparts
    exact ⟨_, _, 0, readComponents_of_solid hparts, by rw [hsplit]; rfl, rfl⟩

theorem givesAlpha_iff : GivesAlpha part a ↔ ∃ x, Component part x ∧ x.clamp 0 1 = a := by
  constructor
  · intro h
    obtain ⟨args, c, hread, hpart, rfl⟩ := h
    obtain ⟨xs, hparts, -, halpha⟩ := exists_numbers_of_readComponents hread
    obtain ⟨x, hx, hcomponent⟩ := exists_component_of_getElem? hparts hpart
    exact ⟨x, hcomponent, (halpha x hx).symm⟩
  · intro h
    obtain ⟨x, hpart, rfl⟩ := h
    have hparts : List.Forall₂ Component [part, part, part, part] [x, x, x, x] := by simp [hpart]
    have hsplit := splitOn_of_component hparts (by simp)
    rw [← hsplit] at hparts
    exact ⟨_, _, readComponents_of_alpha hparts, by rw [hsplit]; rfl, rfl⟩

/-- The components that a decimal spells are the numbers nearest to it. -/
theorem Spells.component_iff (h : Spells part d) :
    Component part x ↔ x.negative = d.negative ∧ x.IsNearest d.toRat := by
  obtain ⟨⟨core, htrims, hwritten⟩, y, hy, hfinite⟩ := h
  rw [← component?_trim_eq_some_iff, Text.trims_iff.mp htrims, component?_eq_some_iff]
  constructor
  · intro hx
    obtain ⟨d', hwritten', hsign, hnearest, -⟩ := hx
    rw [← Decimal.read?_eq_some_iff] at hwritten hwritten'
    obtain rfl := Option.some.inj (hwritten.symm.trans hwritten')
    exact ⟨hsign, hnearest⟩
  · intro hx
    exact ⟨d, hwritten, hx.1, hx.2, hx.2.isFinite hy hfinite⟩

theorem Spells.exists_component (h : Spells part d) : ∃ x, Component part x :=
  ⟨d.toBinary .double, h.component_iff.mpr (Decimal.toBinary_eq_iff.mp rfl)⟩

theorem component_unique {y : Double} (hx : Component part x) (hy : Component part y) : y = x := by
  rw [← component?_trim_eq_some_iff] at hx hy
  exact Option.some.inj (hy.symm.trans hx)

theorem givesByte_iff_eq (hx : Component part x) : GivesByte part k ↔ k = channelByte x := by
  rw [givesByte_iff]
  constructor
  · intro h
    obtain ⟨y, hy, rfl⟩ := h
    rw [component_unique hx hy]
  · intro h
    exact ⟨x, hx, h.symm⟩

theorem givesAlpha_iff_eq (hx : Component part x) : GivesAlpha part a ↔ a = x.clamp 0 1 := by
  rw [givesAlpha_iff]
  constructor
  · intro h
    obtain ⟨y, hy, rfl⟩ := h
    rw [component_unique hx hy]
  · intro h
    exact ⟨x, hx, h.symm⟩

/-! ## Rounding -/

variable {q : ℚ}

theorem isRounded_floor (hq : 0 ≤ q) : IsRounded (⌊q + 1 / 2⌋₊ : ℕ) q := by
  have hlt : q + 1 / 2 < ⌊q + 1 / 2⌋₊ + 1 := Nat.lt_floor_add_one _
  have hhalf := Binary.abs_floor_add_half_sub_le hq
  generalize ⌊q + 1 / 2⌋₊ = k at hlt hhalf
  have hlarge {n : ℤ} (hn : (k : ℤ) < n) : 1 / 2 < |n - q| := by
    have hcast : (k : ℚ) + 1 ≤ n := by exact_mod_cast hn
    exact lt_abs.mpr (.inl (by linarith))
  constructor
  · intro n
    rcases lt_trichotomy n k with hn | rfl | hn
    · have hcast : (n : ℚ) + 1 ≤ k := by exact_mod_cast hn
      have hle := (abs_le.mp hhalf).2
      exact hhalf.trans (le_abs.mpr (.inr (by linarith)))
    · exact le_rfl
    · exact hhalf.trans (hlarge hn).le
  · intro n htie
    by_contra hlt
    rw [not_le, Nat.abs_cast, lt_abs] at hlt
    have hfar : 1 / 2 < |n - q| := by
      rcases hlt with hn | hn
      · exact hlarge hn
      · have hcast : (n : ℚ) + 1 ≤ 0 := by exact_mod_cast (show n + 1 ≤ 0 by omega)
        exact lt_abs.mpr (.inr (by linarith))
    rw [← htie] at hfar
    exact absurd hhalf hfar.not_ge

theorem abs_clamp_sub_clamp_le (p q : ℚ) :
    |max 0 (min p 255) - max 0 (min q 255)| ≤ |p - q| := by
  rw [max_comm 0, max_comm 0]
  calc |max (min p 255) 0 - max (min q 255) 0| ≤ |min p 255 - min q 255| :=
        abs_max_sub_max_le_abs _ _ _
    _ ≤ max |p - q| |255 - 255| := abs_min_sub_min_le_max _ _ _ _
    _ = |p - q| := by simp

theorem abs_clamp_sub_clamp_le_of_isNearest (h : x.IsNearest q) :
    |max 0 (min x.toRat 255) - max 0 (min q 255)| ≤ 1 / 2 ^ 46 := by
  rcases lt_or_ge q 0 with hneg | hlow
  · have hx := h.nonpos hneg.le
    rw [max_eq_left ((min_le_left _ _).trans hx), max_eq_left ((min_le_left _ _).trans hneg.le),
      sub_self, abs_zero]
    positivity
  rcases lt_or_ge 255 q with hlarge | hhigh
  · have hx : 255 ≤ x.toRat := by
      exact_mod_cast byte_le_toRat (n := 255) h le_rfl (by exact_mod_cast hlarge.le)
    rw [min_eq_right hx, min_eq_right hlarge.le, sub_self, abs_zero]
    positivity
  · calc |max 0 (min x.toRat 255) - max 0 (min q 255)|
        ≤ |x.toRat - q| := abs_clamp_sub_clamp_le _ _
      _ ≤ 1 / 2 ^ 46 := h.abs_sub_le_of_le (n := 255) (k := 45) hlow (by exact_mod_cast hhigh)
          (by decide +kernel) (by decide +kernel) (by decide +kernel)

theorem follows_of_component (h : Spells part d) (hx : Component part x) :
    Follows d (channelByte x) (x.clamp 0 1) := by
  obtain ⟨hsign, hnearest⟩ := h.component_iff.mp hx
  have hfinite := isFinite_of_component hx
  have hnonneg (p : ℚ) : 0 ≤ max 0 (min p 255) := le_max_left _ _
  have hbyte : IsChannel x (channelByte x) := (channelByte_eq_iff hfinite).mp rfl
  have hrounded : (∃ y : Double, y.isFinite ∧ y.toRat = d.toRat) →
      IsRounded (channelByte x).toNat (max 0 (min d.toRat 255)) := by
    intro hexact
    obtain ⟨y, hy, hvalue⟩ := hexact
    have hself := Binary.isNearest_toRat (Binary.isNaN_of_isFinite hy)
    rw [hvalue] at hself
    rw [hbyte, hnearest.toRat_eq hself, hvalue]
    exact isRounded_floor (hnonneg _)
  refine ⟨?_, hrounded, fun n hn hvalue => ?_, fun hlow hhigh => ?_⟩
  · have hhalf := Binary.abs_floor_add_half_sub_le (hnonneg x.toRat)
    have herror := abs_clamp_sub_clamp_le_of_isNearest hnearest
    rw [← hbyte] at hhalf
    calc |((channelByte x).toNat : ℚ) - max 0 (min d.toRat 255)|
        ≤ |((channelByte x).toNat : ℚ) - max 0 (min x.toRat 255)| +
          |max 0 (min x.toRat 255) - max 0 (min d.toRat 255)| := abs_sub_le _ _ _
      _ ≤ 1 / 2 + 1 / 2 ^ 46 := add_le_add hhalf herror
  · have hle : (n : ℚ) ≤ 255 := by exact_mod_cast hn
    have hdistance := (hrounded ⟨_, isFinite_byte hn, by rw [toRat_byte hn, hvalue]⟩).abs_sub_le n
    rw [hvalue, min_eq_left hle, max_eq_right n.cast_nonneg] at hdistance
    simp only [Int.cast_natCast, sub_self, abs_zero, abs_nonpos_iff, sub_eq_zero] at hdistance
    exact_mod_cast hdistance
  · have hone : x.toRat ≤ 1 := by
      exact_mod_cast toRat_le_byte (n := 1) hnearest (by decide) (by exact_mod_cast hhigh)
    have halpha : x.clamp 0 1 = x :=
      (clamp_eq_iff hfinite).mpr (.inr (.inr ⟨hnearest.nonneg hlow, hone, rfl⟩))
    rw [halpha]
    exact ⟨hsign, hnearest⟩

/-! ## Order -/

theorem channelByte_le {y : Double} (hx : x.isFinite) (hy : y.isFinite) (h : x.toRat ≤ y.toRat) :
    channelByte x ≤ channelByte y := by
  have hxbyte : IsChannel x (channelByte x) := (channelByte_eq_iff hx).mp rfl
  have hybyte : IsChannel y (channelByte y) := (channelByte_eq_iff hy).mp rfl
  rw [UInt8.le_iff_toNat_le, hxbyte, hybyte]
  apply Nat.floor_le_floor
  gcongr

theorem clamp_le {y : Double} (hx : x.isFinite) (hy : y.isFinite) (h : x.toRat ≤ y.toRat) :
    x.clamp 0 1 ≤ y.clamp 0 1 := by
  obtain ⟨hxnan, hxvalue⟩ := clamp_byte_spec (n := 1) hx (by decide)
  obtain ⟨hynan, hyvalue⟩ := clamp_byte_spec (n := 1) hy (by decide)
  rw [Binary.le_iff_toRat_le, hxvalue, hyvalue]
  refine ⟨hxnan, hynan, ?_⟩
  gcongr

/-- The byte and the alpha of a decimal follow it, and grow with it. -/
theorem component_follows_decimal (h : Spells part d) :
    ∃ k a, (∀ b, GivesByte part b ↔ b = k) ∧ (∀ y, GivesAlpha part y ↔ y = a) ∧ Follows d k a ∧
      ∀ part' d', Spells part' d' → d.toRat ≤ d'.toRat →
        (∀ b, GivesByte part' b → k ≤ b) ∧ ∀ y, GivesAlpha part' y → a ≤ y := by
  obtain ⟨x, hx⟩ := h.exists_component
  refine ⟨channelByte x, x.clamp 0 1, fun _ => givesByte_iff_eq hx, fun _ => givesAlpha_iff_eq hx,
    follows_of_component h hx, fun part' d' h' hle => ?_⟩
  obtain ⟨y, hy⟩ := h'.exists_component
  have hxy := (h.component_iff.mp hx).2.mono (h'.component_iff.mp hy).2 hle
  have hxfinite := isFinite_of_component hx
  have hyfinite := isFinite_of_component hy
  constructor
  · intro b hb
    rw [(givesByte_iff_eq hy).mp hb]
    exact channelByte_le hxfinite hyfinite hxy
  · intro z hz
    rw [(givesAlpha_iff_eq hy).mp hz]
    exact clamp_le hxfinite hyfinite hxy

/-- A half goes up, however it is written. -/
theorem component_follows_decimal_of_half :
    let part := " +12.75e1 ".toList
    Spells part ⟨false, 1275, -1⟩ ∧ IsRounded 128 (255 / 2) ∧ ∀ b, GivesByte part b ↔ b = 128 := by
  intro part
  let d : Decimal := ⟨false, 1275, -1⟩
  have hvalue : d.toRat = 255 / 2 := by norm_num [d, Decimal.toRat, Binary.signed]
  have hspells : Spells part d := by
    refine ⟨⟨Text.trim part, Text.trims_iff.mpr rfl, ?_⟩, d.toBinary .double,
      (Decimal.toBinary_eq_iff.mp rfl).2, by decide +kernel⟩
    rw [← Decimal.read?_eq_some_iff]
    decide +kernel
  have hbyte : GivesByte part 128 :=
    ⟨part ++ ",0,0".toList, ⟨128, 0, 0, 1⟩, 0, by decide +kernel, by decide +kernel, rfl⟩
  obtain ⟨k, a, hbytes, -, hfollows, -⟩ := component_follows_decimal hspells
  obtain rfl := (hbytes 128).mp hbyte
  obtain ⟨y, -, hfinite, hy⟩ := Binary.exists_toRat_eq_div (f := .double) (m := 255) (k := 1)
    (by decide +kernel) (by decide +kernel) (by decide +kernel)
  have hrounded := hfollows.rounded ⟨y, hfinite, by rw [hy, hvalue]; norm_num⟩
  rw [hvalue, min_eq_left (by norm_num), max_eq_right (by norm_num)] at hrounded
  exact ⟨hspells, hrounded, hbytes⟩

end PointSymbol.Color
