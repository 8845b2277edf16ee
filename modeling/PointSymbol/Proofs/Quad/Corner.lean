import PointSymbol.Proofs.Binary.Exact
import PointSymbol.Quad.Corner

/-!
# Corners of indices

An index is that of at most one corner. A vertex with any other index is drawn at the corner where
both sides are greatest.
-/

namespace PointSymbol.Quad.Corner

variable {i : Single} {c d : Corner}

theorem index_le (c : Corner) : c.index ≤ 3 := by
  cases c <;> decide

theorem index_inj : c.index = d.index ↔ c = d := by
  cases c <;> cases d <;> decide

theorem index_bounds (c : Corner) :
    c.index ≤ 2 * 2 ^ Binary.Format.single.fraction ∧
      c.index < 2 ^ 2 ^ (Binary.Format.single.exponent - 1) := by
  have hc := c.index_le
  have hfraction : 3 ≤ 2 * 2 ^ Binary.Format.single.fraction := by decide +kernel
  have hexponent : 3 < 2 ^ 2 ^ (Binary.Format.single.exponent - 1) := by decide +kernel
  omega

theorem eq_of_beq_index (hc : i == .ofNat c.index) (hd : i == .ofNat d.index) : c = d := by
  have hnan : i.isNaN = false := by
    rw [← Bool.not_eq_true]
    intro hi
    rw [Binary.beq_of_isNaN hi] at hc
    cases hc
  rw [Binary.beq_ofNat_iff c.index_bounds.1 c.index_bounds.2 hnan] at hc
  rw [Binary.beq_ofNat_iff d.index_bounds.1 d.index_bounds.2 hnan] at hd
  exact index_inj.mp (by exact_mod_cast hc.symm.trans hd)

theorem ofIndex_eq_ok_iff : ofIndex i = .ok c ↔ i == .ofNat c.index := by
  unfold ofIndex
  cases h : all.find? fun c => Binary.ofNat c.index == i with
  | some d =>
    have hd := List.find?_some h
    simp only [Binary.beq_comm _ i] at hd
    constructor
    · rintro ⟨⟩
      exact hd
    · intro hc
      rw [eq_of_beq_index hc hd]
  | none =>
    have hc := List.find?_eq_none.mp h c (mem_all c)
    rw [Binary.beq_comm _ i] at hc
    constructor
    · rintro ⟨⟩
    · exact fun h => absurd h hc

/-- The corner that a vertex with the index is drawn at. -/
def drawn (i : Single) : Corner :=
  match ofIndex i with
  | .ok c => c
  | .error _ => .maxMax

theorem drawn_of_eq_ok (h : ofIndex i = .ok c) : drawn i = c := by
  rw [drawn, h]

theorem drawn_of_eq_error {e : Symbol.Error} (h : ofIndex i = .error e) : drawn i = .maxMax := by
  rw [drawn, h]

/-- Comparing the index with those of some corners tells whether the vertex is drawn at one of them,
unless the corner of all other indices is among them. -/
theorem any_beq_index {p : Corner → Bool} (hmax : p maxMax = false) (i : Single) :
    ((all.filter p).any fun c => i == .ofNat c.index) = p (drawn i) := by
  rw [Bool.eq_iff_iff, List.any_eq_true]
  constructor
  · rintro ⟨c, hc, hi⟩
    rw [drawn_of_eq_ok (ofIndex_eq_ok_iff.mpr hi)]
    exact (List.mem_filter.mp hc).2
  · intro h
    cases hi : ofIndex i with
    | ok c =>
      rw [drawn_of_eq_ok hi] at h
      exact ⟨c, List.mem_filter.mpr ⟨mem_all c, h⟩, ofIndex_eq_ok_iff.mp hi⟩
    | error e =>
      rw [drawn_of_eq_error hi, hmax] at h
      cases h

end PointSymbol.Quad.Corner
