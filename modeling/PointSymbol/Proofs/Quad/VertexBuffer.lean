import PointSymbol.Proofs.Quad.Corner
import PointSymbol.Quad.Vertex

/-!
# Vertex buffers

The bytes of a number are read back by adding them up, least significant first. The buffer of a quad
holds four vertices of one length, so the bytes at each multiple of the stride are those of the
anchor and of an index that selects the corner.
-/

namespace PointSymbol

/-! ## Bytes of numbers -/

namespace Binary
variable {f : Format}

def bytesToNat (bytes : List UInt8) : Nat :=
  bytes.foldr (fun b n => b.toNat + 256 * n) 0

/-- The number whose bits are the bytes, least significant first. -/
def ofLittleEndian (bytes : List UInt8) : Binary f :=
  ofBits (BitVec.ofNat _ (bytesToNat bytes))

theorem bytesToNat_range (n k : Nat) :
    bytesToNat ((List.range n).map fun i => UInt8.ofNat (k >>> (8 * i))) = k % 256 ^ n := by
  induction n generalizing k with
  | zero => rw [Nat.pow_zero, Nat.mod_one]; rfl
  | succ n ih =>
    have htail : (List.range n).map ((fun i => UInt8.ofNat (k >>> (8 * i))) ∘ Nat.succ) =
        (List.range n).map fun i => UInt8.ofNat ((k / 256) >>> (8 * i)) := by
      apply List.map_congr_left
      intro i _
      rw [Function.comp_apply, Nat.mul_succ, Nat.add_comm, Nat.shiftRight_add,
        Nat.shiftRight_eq_div_pow k 8]
    rw [List.range_succ_eq_map, List.map_cons, List.map_map, htail, bytesToNat, List.foldr_cons,
      ← bytesToNat, ih, Nat.pow_succ', Nat.mod_mul, Nat.mul_zero, Nat.shiftRight_zero,
      UInt8.toNat_ofNat']

/-- The last byte may be longer than what is left of the bits. -/
theorem ofLittleEndian_littleEndian (x : Binary f) : ofLittleEndian x.littleEndian = x := by
  have hlt : x.bits.toNat < 256 ^ ((f.width + 7) / 8) := by
    calc x.bits.toNat < 2 ^ f.width := x.bits.isLt
      _ ≤ 2 ^ (8 * ((f.width + 7) / 8)) := Nat.pow_le_pow_right Nat.two_pos (by omega)
      _ = 256 ^ ((f.width + 7) / 8) := Nat.pow_mul ..
  rw [ofLittleEndian, littleEndian, bytesToNat_range, Nat.mod_eq_of_lt hlt, BitVec.ofNat_toNat,
    BitVec.setWidth_eq, ofBits_bits]

end Binary

namespace Quad

/-! ## Indices -/

namespace Corner

/-- The number is the index of the corner, whatever the sign of a zero. -/
def IsIndex (i : Single) (c : Corner) : Prop := i.isFinite ∧ i.toRat = c.index

theorem isIndex_iff {i : Single} {c : Corner} : IsIndex i c ↔ i == .ofNat c.index := by
  obtain ⟨hfraction, hexponent⟩ := c.index_bounds
  rcases i.isNaN_or_isInfinite_or_isFinite with hi | hi | hi
  · have hfinite : i.isFinite = false := Binary.isFinite_eq_false_iff.mpr (.inl hi)
    simp [IsIndex, hfinite, Binary.beq_of_isNaN hi]
  · have hfinite : i.isFinite = false := Binary.isFinite_eq_false_iff.mpr (.inr hi)
    simp [IsIndex, hfinite, Binary.beq_ofNat_of_isInfinite hfraction hexponent hi]
  · rw [IsIndex, Binary.beq_ofNat_iff hfraction hexponent (Binary.isNaN_of_isFinite hi)]
    exact and_iff_right hi

theorem ofIndex_eq_ok_iff_isIndex {i : Single} {c : Corner} : ofIndex i = .ok c ↔ IsIndex i c := by
  rw [ofIndex_eq_ok_iff, isIndex_iff]

theorem eq_cornerIndex_of_ofIndex {i : Single} {e : Symbol.Error} (h : ofIndex i = .error e) :
    e = .cornerIndex i := by
  unfold ofIndex at h
  split at h
  · cases h
  · exact (Except.error.inj h).symm

theorem ofIndex_eq_error_iff {i : Single} {e : Symbol.Error} :
    ofIndex i = .error e ↔ (∀ c, ¬IsIndex i c) ∧ e = .cornerIndex i := by
  constructor
  · intro h
    refine ⟨fun c hc => ?_, eq_cornerIndex_of_ofIndex h⟩
    rw [← ofIndex_eq_ok_iff_isIndex, h] at hc
    cases hc
  · rintro ⟨hnone, rfl⟩
    cases h : ofIndex i with
    | ok c => exact absurd (ofIndex_eq_ok_iff_isIndex.mp h) (hnone c)
    | error e => rw [eq_cornerIndex_of_ofIndex h]

end Corner

/-! ## Vertices in a buffer -/

namespace Vertex

/-- The vertex at a position of a buffer. -/
def read (buffer : List UInt8) (position : Nat) : Vertex where
  x := .ofLittleEndian ((buffer.drop position).take 4)
  y := .ofLittleEndian ((buffer.drop (position + 4)).take 4)
  index := .ofLittleEndian ((buffer.drop (position + 8)).take 4)

theorem length_single (x : Single) : x.littleEndian.length = 4 :=
  x.length_littleEndian

theorem length_bytes (v : Vertex) : v.bytes.length = stride := by
  simp only [bytes, List.length_append, length_single]
  rfl

theorem length_flatMap_bytes (vs : List Vertex) :
    (vs.flatMap bytes).length = vs.length * stride := by
  induction vs with
  | nil => rw [List.length_nil, Nat.zero_mul]; rfl
  | cons v vs ih =>
    rw [List.flatMap_cons, List.length_append, ih, length_bytes, List.length_cons, Nat.succ_mul,
      Nat.add_comm]

theorem read_of_drop {buffer rest : List UInt8} {position : Nat} {v : Vertex}
    (h : buffer.drop position = v.bytes ++ rest) : read buffer position = v := by
  have hx := length_single v.x
  have hy := length_single v.y
  have hbytes : v.bytes ++ rest =
      v.x.littleEndian ++ (v.y.littleEndian ++ (v.index.littleEndian ++ rest)) := by
    rw [bytes, List.append_assoc, List.append_assoc]
  have hdrop4 : buffer.drop (position + 4) =
      v.y.littleEndian ++ (v.index.littleEndian ++ rest) := by
    rw [← List.drop_drop, h, hbytes, List.drop_left' hx]
  have hdrop8 : buffer.drop (position + 8) = v.index.littleEndian ++ rest := by
    rw [← Nat.add_assoc position 4 4, ← List.drop_drop, hdrop4, List.drop_left' hy]
  rw [read, h, hbytes, hdrop4, hdrop8, List.take_left' hx, List.take_left' hy,
    List.take_left' (length_single v.index), Binary.ofLittleEndian_littleEndian,
    Binary.ofLittleEndian_littleEndian, Binary.ofLittleEndian_littleEndian]

theorem drop_flatMap_bytes (vs : List Vertex) (k : Nat) :
    (vs.flatMap bytes).drop (stride * k) = (vs.drop k).flatMap bytes := by
  induction vs generalizing k with
  | nil => rw [List.flatMap_nil, List.drop_nil, List.drop_nil, List.flatMap_nil]
  | cons v vs ih =>
    cases k with
    | zero => rfl
    | succ k =>
      rw [Nat.mul_succ, Nat.add_comm, ← List.drop_drop, List.flatMap_cons,
        List.drop_left' (length_bytes v), ih, List.drop_succ_cons]

/-- The vertices of a buffer stand at the multiples of the stride. -/
theorem read_flatMap_bytes {vs : List Vertex} {k : Nat} {v : Vertex} (h : vs[k]? = some v) :
    read (vs.flatMap bytes) (stride * k) = v := by
  obtain ⟨hk, rfl⟩ := List.getElem?_eq_some_iff.mp h
  have hdrop : (vs.flatMap bytes).drop (stride * k) =
      vs[k].bytes ++ (vs.drop (k + 1)).flatMap bytes := by
    rw [drop_flatMap_bytes, List.drop_eq_getElem_cons hk, List.flatMap_cons]
  exact read_of_drop hdrop

theorem read_quad (x y : Single) (k : Fin 4) :
    read ((quad x y).flatMap bytes) (stride * k) = ⟨x, y, .ofNat (Corner.all.get k).index⟩ := by
  apply read_flatMap_bytes
  rw [quad, List.getElem?_map, List.getElem?_eq_getElem k.isLt]
  rfl

theorem quad_buffer_inj {x y x' y' : Single} :
    (quad x' y').flatMap bytes = (quad x y).flatMap bytes ↔ x' = x ∧ y' = y := by
  constructor
  · intro h
    have hread := read_quad x' y' 0
    rw [h, read_quad] at hread
    obtain ⟨hx, hy, -⟩ := Vertex.mk.inj hread
    exact ⟨hx.symm, hy.symm⟩
  · rintro ⟨rfl, rfl⟩
    rfl

/-- A buffer holds what drawing its quad expects: four vertices one stride apart, each with the bits
of the anchor and with an index that selects its corner. It tells the anchor, and an index selects
the corner whose number it is equal to, or is handed back. -/
theorem quad_buffer (x y : Single) :
    let buffer := (quad x y).flatMap bytes
    buffer.length = 4 * stride ∧ buffer.length = 48 ∧
    (∀ k : Fin 4, (read buffer (stride * k)).x.bits = x.bits ∧
      (read buffer (stride * k)).y.bits = y.bits ∧
      Corner.ofIndex (read buffer (stride * k)).index = .ok (Corner.all.get k)) ∧
    (∀ x' y' : Single, (quad x' y').flatMap bytes = buffer ↔ x'.bits = x.bits ∧ y'.bits = y.bits) ∧
    (∀ (i : Single) (c : Corner), Corner.ofIndex i = .ok c ↔ i.isFinite ∧ i.toRat = c.index) ∧
    (∀ (i : Single) (e : Symbol.Error), Corner.ofIndex i = .error e ↔
      (∀ c : Corner, ¬(i.isFinite ∧ i.toRat = c.index)) ∧ e = .cornerIndex i) ∧
    Corner.ofIndex (.zero true) = .ok .minMin := by
  intro buffer
  have hlength : buffer.length = 4 * stride := length_flatMap_bytes (quad x y)
  refine ⟨hlength, hlength, fun k => ?_, fun x' y' => ?_,
    fun i c => Corner.ofIndex_eq_ok_iff_isIndex, fun i e => Corner.ofIndex_eq_error_iff, ?_⟩
  · rw [read_quad]
    exact ⟨rfl, rfl, Corner.ofIndex_index _⟩
  · rw [Binary.bits_inj, Binary.bits_inj, quad_buffer_inj]
  · apply Corner.ofIndex_eq_ok_iff_isIndex.mpr
    exact ⟨by decide +kernel, Binary.toRat_zero true⟩

end Vertex

end Quad

end PointSymbol
