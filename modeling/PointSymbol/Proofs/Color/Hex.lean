import PointSymbol.Color.Css
import PointSymbol.Proofs.Binary.Value

/-!
# Hex colors

Hex digits spell three or four bytes, each with one digit or each with two. The reader accepts these
and no other digits.
-/

namespace PointSymbol.Color

def HexDigit.toChar (d : HexDigit) : Char := Nat.digitChar d

/-- A single digit stands for a pair of that digit. -/
inductive HexBytes : List Char → List Nat → Prop
  | short (ds : List HexDigit) : HexBytes (ds.map HexDigit.toChar) (ds.map fun d => 17 * d.val)
  | long (ds : List (HexDigit × HexDigit)) :
      HexBytes (ds.flatMap fun (high, low) => [high.toChar, low.toChar])
        (ds.map fun (high, low) => 16 * high.val + low.val)

/-- Alpha is the number nearest to the fourth byte out of 255. -/
inductive HexForm (c : Rgba) : List Char → Prop
  | solid {cs : List Char} (hbytes : HexBytes cs [c.red.toNat, c.green.toNat, c.blue.toNat])
      (halpha : c.alpha = 1) : HexForm c ('#' :: cs)
  | alpha {cs : List Char} {k : Nat}
      (hbytes : HexBytes cs [c.red.toNat, c.green.toNat, c.blue.toNat, k])
      (hsign : c.alpha.negative = false) (halpha : c.alpha.IsNearest (k / 255)) :
      HexForm c ('#' :: cs)

/-! ## Digits and bytes -/

theorem HexDigit.toChar_inj {d d' : HexDigit} : d.toChar = d'.toChar ↔ d = d' := by
  revert d d'
  decide

theorem HexDigit.toChar_of_ofChar? {c : Char} {d : HexDigit} (h : ofChar? c = some d) :
    d.toChar = c := by
  have hd := List.find?_some h
  exact of_decide_eq_true hd

theorem HexDigit.ofChar?_eq_some_iff {c : Char} {d : HexDigit} :
    ofChar? c = some d ↔ d.toChar = c := by
  constructor
  · exact toChar_of_ofChar?
  · rintro rfl
    cases h : ofChar? d.toChar with
    | none =>
      have hnone := List.find?_eq_none.mp h d (List.mem_finRange d)
      exact absurd (decide_eq_true rfl) hnone
    | some d' => rw [toChar_inj.mp (toChar_of_ofChar? h)]

theorem mapM_ofChar?_eq_some_iff {cs : List Char} {ds : List HexDigit} :
    cs.mapM HexDigit.ofChar? = some ds ↔ ds.map HexDigit.toChar = cs := by
  induction cs generalizing ds with
  | nil => cases ds <;> simp
  | cons c cs ih =>
    simp only [List.mapM_cons, Option.bind_eq_bind, Option.bind_eq_some_iff,
      HexDigit.ofChar?_eq_some_iff, ih, Option.pure_def, Option.some.injEq]
    constructor
    · rintro ⟨d, rfl, ds, rfl, rfl⟩
      rfl
    · intro h
      cases ds with
      | nil => cases h
      | cons d ds =>
        obtain ⟨rfl, rfl⟩ := List.cons.inj h
        exact ⟨d, rfl, ds, rfl, rfl⟩

theorem mapM_ofChar?_pairs (ds : List (HexDigit × HexDigit)) :
    (ds.flatMap fun (high, low) => [high.toChar, low.toChar]).mapM HexDigit.ofChar? =
      some (ds.flatMap fun (high, low) => [high, low]) := by
  rw [mapM_ofChar?_eq_some_iff, List.map_flatMap]
  rfl

@[simp] theorem toNat_hexByte (high low : HexDigit) :
    (hexByte high low).toNat = 16 * high + low := rfl

theorem alphaOfByte_eq_iff {a : UInt8} {x : Double} :
    alphaOfByte a = x ↔ x.negative = false ∧ x.IsNearest (a.toNat / 255) := by
  rw [alphaOfByte, Binary.nearest_eq_iff (by decide)]
  simp [Binary.signed]

/-! ## Reading digits -/

theorem toNat_hexByte_self (d : HexDigit) : (hexByte d d).toNat = 17 * d.val := by
  rw [toNat_hexByte]
  omega

theorem hexForm_of_readHex {cs : List Char} {c : Rgba} (h : Rgba.readHex cs = .ok c) :
    HexForm c ('#' :: cs) := by
  unfold Rgba.readHex at h
  split at h
  · cases h
  · next r g b hds =>
    obtain rfl := Except.ok.inj h
    rw [← mapM_ofChar?_eq_some_iff.mp hds]
    refine .solid ?_ rfl
    simp only [Rgba.solid, toNat_hexByte_self]
    exact .short [r, g, b]
  · next r g b a hds =>
    obtain rfl := Except.ok.inj h
    obtain ⟨hsign, hnearest⟩ := alphaOfByte_eq_iff.mp (Eq.refl (alphaOfByte (hexByte a a)))
    rw [← mapM_ofChar?_eq_some_iff.mp hds]
    refine .alpha ?_ hsign hnearest
    simp only [toNat_hexByte_self]
    exact .short [r, g, b, a]
  · next r r' g g' b b' hds =>
    obtain rfl := Except.ok.inj h
    rw [← mapM_ofChar?_eq_some_iff.mp hds]
    exact .solid (.long [(r, r'), (g, g'), (b, b')]) rfl
  · next r r' g g' b b' a a' hds =>
    obtain rfl := Except.ok.inj h
    obtain ⟨hsign, hnearest⟩ := alphaOfByte_eq_iff.mp (Eq.refl (alphaOfByte (hexByte a a')))
    rw [← mapM_ofChar?_eq_some_iff.mp hds]
    exact .alpha (.long [(r, r'), (g, g'), (b, b'), (a, a')]) hsign hnearest
  · cases h

/-- Three bytes are written by three digits or by three pairs. -/
theorem readHex_of_solid {cs : List Char} {r g b : UInt8}
    (h : HexBytes cs [r.toNat, g.toNat, b.toNat]) : Rgba.readHex cs = .ok (.solid r g b) := by
  generalize hbytes : [r.toNat, g.toNat, b.toNat] = bytes at h
  cases h with
  | short ds =>
    simp only [eq_comm (a := [_, _, _]), List.map_eq_cons_iff, List.map_eq_nil_iff] at hbytes
    obtain ⟨d, _, rfl, hr, d', _, rfl, hg, d'', _, rfl, hb, rfl⟩ := hbytes
    rw [← toNat_hexByte_self, UInt8.toNat_inj] at hr hg hb
    rw [Rgba.readHex, mapM_ofChar?_eq_some_iff.mpr rfl, ← hr, ← hg, ← hb]
  | long ds =>
    simp only [eq_comm (a := [_, _, _]), List.map_eq_cons_iff, List.map_eq_nil_iff] at hbytes
    obtain ⟨⟨d, e⟩, _, rfl, hr, ⟨d', e'⟩, _, rfl, hg, ⟨d'', e''⟩, _, rfl, hb, rfl⟩ := hbytes
    rw [← toNat_hexByte, UInt8.toNat_inj] at hr hg hb
    rw [Rgba.readHex, mapM_ofChar?_pairs, ← hr, ← hg, ← hb]
    rfl

theorem readHex_of_alpha {cs : List Char} {r g b a : UInt8}
    (h : HexBytes cs [r.toNat, g.toNat, b.toNat, a.toNat]) :
    Rgba.readHex cs = .ok ⟨r, g, b, alphaOfByte a⟩ := by
  generalize hbytes : [r.toNat, g.toNat, b.toNat, a.toNat] = bytes at h
  cases h with
  | short ds =>
    simp only [eq_comm (a := [_, _, _, _]), List.map_eq_cons_iff, List.map_eq_nil_iff] at hbytes
    obtain ⟨d, _, rfl, hr, d', _, rfl, hg, d'', _, rfl, hb, e, _, rfl, ha, rfl⟩ := hbytes
    rw [← toNat_hexByte_self, UInt8.toNat_inj] at hr hg hb ha
    rw [Rgba.readHex, mapM_ofChar?_eq_some_iff.mpr rfl, ← hr, ← hg, ← hb, ← ha]
  | long ds =>
    simp only [eq_comm (a := [_, _, _, _]), List.map_eq_cons_iff, List.map_eq_nil_iff] at hbytes
    obtain ⟨⟨d, e⟩, _, rfl, hr, ⟨d', e'⟩, _, rfl, hg, ⟨d'', e''⟩, _, rfl, hb, ⟨k, l⟩, _, rfl, ha,
      rfl⟩ := hbytes
    rw [← toNat_hexByte, UInt8.toNat_inj] at hr hg hb ha
    rw [Rgba.readHex, mapM_ofChar?_pairs, ← hr, ← hg, ← hb, ← ha]
    rfl

theorem lt_of_hexBytes {cs : List Char} {bytes : List Nat} (h : HexBytes cs bytes) :
    ∀ k ∈ bytes, k < 256 := by
  intro k hk
  cases h with
  | short ds =>
    obtain ⟨d, -, rfl⟩ := List.mem_map.mp hk
    omega
  | long ds =>
    obtain ⟨⟨d, e⟩, -, rfl⟩ := List.mem_map.mp hk
    dsimp only
    omega

theorem readHex_eq_ok_iff {cs : List Char} {c : Rgba} :
    Rgba.readHex cs = .ok c ↔ HexForm c ('#' :: cs) := by
  constructor
  · exact hexForm_of_readHex
  · intro h
    obtain ⟨red, green, blue, a⟩ := c
    cases h with
    | solid hbytes halpha =>
      obtain rfl : a = 1 := halpha
      exact readHex_of_solid hbytes
    | @alpha _ k hbytes hsign halpha =>
      have hk : (UInt8.ofNat k).toNat = k :=
        UInt8.toNat_ofNat_of_lt' (lt_of_hexBytes hbytes k (by simp))
      rw [← hk] at hbytes halpha
      obtain rfl := alphaOfByte_eq_iff.mpr ⟨hsign, halpha⟩
      exact readHex_of_alpha hbytes

end PointSymbol.Color
