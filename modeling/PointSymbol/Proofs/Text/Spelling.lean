import Mathlib.Data.List.Forall2
import PointSymbol.Proofs.Text.Trim

/-!
# Spellings of texts

Texts that differ in the case of their ASCII letters are equal in lower case, and texts that differ
in the blanks at their ends are equal when trimmed. No blank is a letter, so lower case and trimming
may come in either order.
-/

namespace PointSymbol.Text

/-- The same characters, but for the case of ASCII letters. -/
def Recased : List Char → List Char → Prop :=
  List.Forall₂ fun c d => d = c ∨ d = c.toLower ∨ d = c.toUpper

/-- The same text, with more blanks at its ends. -/
inductive Padded : List Char → List Char → Prop
  | mk {before core after : List Char} (hbefore : Blank before) (hafter : Blank after) :
      Padded core (before ++ core ++ after)

variable {c : Char} {cs ds : List Char}

/-! ## Case -/

theorem toNat_toLower (c : Char) :
    c.toLower.toNat = if 65 ≤ c.toNat ∧ c.toNat ≤ 90 then c.toNat + 32 else c.toNat := by
  have hupper : ('A'.val ≤ c.val ∧ c.val ≤ 'Z'.val) ↔ 65 ≤ c.toNat ∧ c.toNat ≤ 90 := Iff.rfl
  unfold Char.toLower
  simp only [ge_iff_le, hupper]
  split
  · next h =>
    have hle : c.val.toNat ≤ 90 := h.2
    show (c.val + 32).toNat = c.val.toNat + 32
    rw [UInt32.toNat_add]
    exact Nat.mod_eq_of_lt (show c.val.toNat + 32 < 2 ^ 32 by omega)
  · rfl

theorem toNat_toUpper (c : Char) :
    c.toUpper.toNat = if 97 ≤ c.toNat ∧ c.toNat ≤ 122 then c.toNat - 32 else c.toNat := by
  have hlower : ('a'.val ≤ c.val ∧ c.val ≤ 'z'.val) ↔ 97 ≤ c.toNat ∧ c.toNat ≤ 122 := Iff.rfl
  unfold Char.toUpper
  simp only [hlower]
  split
  · next h =>
    have hle : 97 ≤ c.val.toNat := h.1
    have hlt : c.val.toNat ≤ 122 := h.2
    have hshift : ('A'.val - 'a'.val).toNat = 2 ^ 32 - 32 := by decide
    show (c.val + ('A'.val - 'a'.val)).toNat = c.val.toNat - 32
    rw [UInt32.toNat_add, hshift]
    omega
  · rfl

theorem toLower_toLower (c : Char) : c.toLower.toLower = c.toLower := by
  rw [← Char.toNat_inj]
  simp only [toNat_toLower]
  split_ifs <;> omega

theorem toLower_toUpper (c : Char) : c.toUpper.toLower = c.toLower := by
  rw [← Char.toNat_inj]
  simp only [toNat_toLower, toNat_toUpper]
  split_ifs <;> omega

theorem Recased.map_toLower (h : Recased cs ds) : ds.map Char.toLower = cs.map Char.toLower := by
  induction h with
  | nil => rfl
  | cons hcase _ ih =>
    rw [List.map_cons, List.map_cons, ih]
    rcases hcase with rfl | rfl | rfl
    · rfl
    · rw [toLower_toLower]
    · rw [toLower_toUpper]

theorem toLower_eq_iff_of_lt {d : Char} (hd : d.toNat < 65) : c.toLower = d ↔ c = d := by
  rw [← Char.toNat_inj, ← Char.toNat_inj, toNat_toLower]
  split_ifs <;> omega

theorem toNat_of_isLower (h : c.isLower) : 97 ≤ c.toNat ∧ c.toNat ≤ 122 := by
  unfold Char.isLower at h
  simp only [ge_iff_le, Bool.and_eq_true, decide_eq_true_eq] at h
  exact h

theorem toNat_of_isDigit (h : c.isDigit) : 48 ≤ c.toNat ∧ c.toNat ≤ 57 := by
  simp only [Char.isDigit, ge_iff_le, Bool.and_eq_true, decide_eq_true_eq] at h
  exact h

theorem toLower_of_isLower (h : c.isLower) : c.toLower = c := by
  have hletter := toNat_of_isLower h
  rw [← Char.toNat_inj, toNat_toLower, if_neg (by omega)]

theorem toLower_of_isDigit (h : c.isDigit) : c.toLower = c := by
  have hdigit := toNat_of_isDigit h
  rw [← Char.toNat_inj, toNat_toLower, if_neg (by omega)]

theorem map_toLower_eq_self (h : ∀ c ∈ cs, c.toLower = c) : cs.map Char.toLower = cs :=
  (List.map_congr_left h).trans (List.map_id cs)

/-! ## Blanks -/

theorem isBlank_of_isLower (h : c.isLower) : isBlank c = false := by
  have hletter := toNat_of_isLower h
  simp [isBlank, blankRanges]
  omega

theorem isBlank_of_isDigit (h : c.isDigit) : isBlank c = false := by
  have hdigit := toNat_of_isDigit h
  simp [isBlank, blankRanges]
  omega

theorem isBlank_toLower (c : Char) : isBlank c.toLower = isBlank c := by
  rw [Bool.eq_iff_iff]
  simp only [isBlank, toNat_toLower]
  split
  · simp [blankRanges]
    omega
  · rfl

theorem blank_map_toLower (h : Blank cs) : Blank (cs.map Char.toLower) := by
  intro c hc
  obtain ⟨d, hd, rfl⟩ := List.mem_map.mp hc
  rw [isBlank_toLower]
  exact h d hd

theorem trim_map_toLower (cs : List Char) :
    trim (cs.map Char.toLower) = (trim cs).map Char.toLower := by
  have hblank : isBlank ∘ Char.toLower = isBlank := funext isBlank_toLower
  rw [trim, trimStart, List.dropWhile_map, hblank, trimEnd, ← List.map_reverse,
    List.dropWhile_map, hblank, ← List.map_reverse]
  rfl

theorem Trims.pad {core before after : List Char} (h : Trims cs core) (hbefore : Blank before)
    (hafter : Blank after) : Trims (before ++ cs ++ after) core := by
  obtain ⟨hbefore', htight, hafter'⟩ := h
  have hpad := Trims.mk (List.forall_mem_append.mpr ⟨hbefore, hbefore'⟩) htight
    (List.forall_mem_append.mpr ⟨hafter', hafter⟩)
  simpa only [List.append_assoc] using hpad

theorem Padded.trim_eq (h : Padded cs ds) : trim ds = trim cs := by
  obtain ⟨hbefore, hafter⟩ := h
  exact trim_eq_of_trims ((trims_iff.mpr rfl).pad hbefore hafter)

end PointSymbol.Text
