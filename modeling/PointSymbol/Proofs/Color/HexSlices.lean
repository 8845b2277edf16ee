import PointSymbol.Proofs.Color.Faults
import PointSymbol.Proofs.Text.Spelling

/-!
# Hex colors by slices of bytes

A reader of hex digits may work on the bytes of the text: it takes slices at byte positions, reads
each slice as a number in base sixteen, and picks the channels by position. A slice can leave the
text or divide a character, a digit times seventeen can leave a byte, and a channel can be missing;
the reader then halts without an answer. `readSlices_eq`: on no text does it, and its answer is that
of `Rgba.readHex`.
-/

namespace PointSymbol

/-! ## Slices -/

namespace Text

def byteLength (cs : List Char) : Nat := (cs.map Char.utf8Size).sum

/-- The text before and after a byte position. There is none past the end and none inside of a
character. -/
def cut? : List Char → Nat → Option (List Char × List Char)
  | cs, 0 => some ([], cs)
  | [], _ + 1 => none
  | c :: cs, n + 1 =>
    if c.utf8Size ≤ n + 1 then
      (cut? cs (n + 1 - c.utf8Size)).map fun (before, after) => (c :: before, after)
    else none

def slice? (cs : List Char) (first last : Nat) : Option (List Char) := do
  let upto ← (cut? cs last).map Prod.fst
  (cut? upto first).map Prod.snd

variable {cs before part after : List Char} {n first last : Nat}

@[simp] theorem byteLength_nil : byteLength [] = 0 := rfl

@[simp] theorem byteLength_cons (c : Char) (cs : List Char) :
    byteLength (c :: cs) = c.utf8Size + byteLength cs := rfl

theorem cut?_append (before after : List Char) :
    cut? (before ++ after) (byteLength before) = some (before, after) := by
  induction before with
  | nil => rw [List.nil_append, byteLength_nil, cut?]
  | cons c before ih =>
    have hpos := c.utf8Size_pos
    obtain ⟨n, hn⟩ : ∃ n, byteLength (c :: before) = n + 1 :=
      ⟨c.utf8Size + byteLength before - 1, by rw [byteLength_cons]; omega⟩
    have hrest : n + 1 - c.utf8Size = byteLength before := by rw [← hn, byteLength_cons]; omega
    have hle : c.utf8Size ≤ n + 1 := by rw [← hn, byteLength_cons]; omega
    rw [List.cons_append, hn, cut?, if_pos hle, hrest, ih]
    rfl

theorem append_of_cut? (h : cut? cs n = some (before, after)) :
    cs = before ++ after ∧ byteLength before = n := by
  induction cs generalizing n before with
  | nil =>
    cases n with
    | zero =>
      cases h
      exact ⟨rfl, rfl⟩
    | succ n => cases h
  | cons c cs ih =>
    cases n with
    | zero =>
      cases h
      exact ⟨rfl, rfl⟩
    | succ n =>
      rw [cut?] at h
      by_cases hle : c.utf8Size ≤ n + 1
      · rw [if_pos hle, Option.map_eq_some_iff] at h
        obtain ⟨⟨before', after'⟩, hcut, hpair⟩ := h
        obtain ⟨rfl, rfl⟩ := Prod.mk.inj hpair
        obtain ⟨rfl, hlength⟩ := ih hcut
        refine ⟨rfl, ?_⟩
        rw [byteLength_cons]
        omega
      · rw [if_neg hle] at h
        cases h

theorem slice?_eq_some_iff : slice? cs first last = some part ↔
    ∃ before after, cs = before ++ part ++ after ∧ byteLength before = first ∧
      byteLength (before ++ part) = last := by
  constructor
  · intro h
    simp only [slice?, Option.bind_eq_bind, Option.bind_eq_some_iff, Option.map_eq_some_iff] at h
    obtain ⟨_, ⟨⟨upto, after⟩, hupto, rfl⟩, ⟨before, _⟩, hbefore, rfl⟩ := h
    obtain ⟨rfl, hlast⟩ := append_of_cut? hupto
    obtain ⟨rfl, hfirst⟩ := append_of_cut? hbefore
    exact ⟨before, after, rfl, hfirst, hlast⟩
  · intro h
    obtain ⟨before, after, rfl, rfl, rfl⟩ := h
    rw [slice?, cut?_append, Option.map_some, Option.bind_eq_bind, Option.bind_some, cut?_append]
    rfl

/-! Where every character is one byte, positions count characters. -/

theorem byteLength_of_ascii (h : ∀ c ∈ cs, c.utf8Size = 1) : byteLength cs = cs.length := by
  induction cs with
  | nil => rfl
  | cons c cs ih =>
    obtain ⟨hc, hcs⟩ := List.forall_mem_cons.mp h
    rw [byteLength_cons, hc, ih hcs, List.length_cons, Nat.add_comm]

theorem slice?_of_ascii {k : Nat} (h : ∀ c ∈ cs, c.utf8Size = 1) (hle : first + k ≤ cs.length) :
    slice? cs first (first + k) = some ((cs.drop first).take k) := by
  have hsub {ds : List Char} (hds : ∀ c ∈ ds, c ∈ cs) : byteLength ds = ds.length :=
    byteLength_of_ascii fun c hc => h c (hds c hc)
  have htake : cs.take first ++ (cs.drop first).take k = cs.take (first + k) := List.take_add.symm
  apply slice?_eq_some_iff.mpr
  refine ⟨cs.take first, cs.drop (first + k), ?_, ?_, ?_⟩
  · rw [htake, List.take_append_drop]
  · rw [hsub fun c => List.mem_of_mem_take, List.length_take]
    omega
  · rw [htake, hsub fun c => List.mem_of_mem_take, List.length_take]
    omega

end Text

/-! ## The reader -/

namespace Color
open Text (byteLength slice?)

def radixValue (ds : List HexDigit) : Nat := ds.foldl (fun n d => 16 * n + d.val) 0

/-- A number from 0 to 255 in base sixteen, in either case, with a plus in front or without. -/
def byteOfRadix? (cs : List Char) : Option UInt8 :=
  let digits := if cs.head? = some '+' then cs.tail else cs
  match (digits.map Char.toLower).mapM HexDigit.ofChar? with
  | none | some [] => none
  | some ds => if radixValue ds < 256 then some (.ofNat (radixValue ds)) else none

example : byteOfRadix? ['+', 'F'] = some 15 ∧ byteOfRadix? ['+'] = none ∧
    byteOfRadix? ['1', '0', '0'] = none := by decide

/-- Why a reader of slices gives no color. The first two are answers. -/
inductive Halt where
  | fault (fault : Fault)
  | invalidDigits
  | noSlice (first last : Nat)
  | overflow (digit : UInt8)
  | noChannel (position : Nat)
  deriving DecidableEq

def readSlice (cs : List Char) (first last : Nat) : Except Halt UInt8 :=
  match slice? cs first last with
  | none => .error (.noSlice first last)
  | some part =>
    match byteOfRadix? part with
    | none => .error .invalidDigits
    | some b => .ok b

def timesSeventeen (digit : UInt8) : Except Halt UInt8 :=
  if digit.toNat * 17 < 256 then .ok (digit * 17) else .error (.overflow digit)

def readChannels (cs : List Char) : Except Halt (List UInt8) :=
  let n := byteLength cs
  if n = 3 ∨ n = 4 then
    (List.range n).mapM fun i => readSlice cs i (i + 1) >>= timesSeventeen
  else if n = 6 ∨ n = 8 then
    (List.range' 0 ((n + 1) / 2) 2).mapM fun i => readSlice cs i (i + 2)
  else .error (.fault (.digitCount n))

def channel (bytes : List UInt8) (position : Nat) : Except Halt UInt8 :=
  match bytes[position]? with
  | some b => .ok b
  | none => .error (.noChannel position)

/-- Here digits may be in either case. -/
def readSlices (cs : List Char) : Except Halt Rgba :=
  if cs.all fun c => c.toLower ∈ hexDigits then do
    let bytes ← readChannels cs
    let alpha :=
      match bytes[3]? with
      | some a => alphaOfByte a
      | none => 1
    return ⟨← channel bytes 0, ← channel bytes 1, ← channel bytes 2, alpha⟩
  else .error (.fault .nonHexDigit)

/-! ## Its steps -/

section Steps
variable {cs : List Char} {ds : List HexDigit} {i k : Nat}

theorem utf8Size_of_hexDigit {c : Char} (h : c.toLower ∈ hexDigits) : c.utf8Size = 1 := by
  have hall : hexDigits.all fun d => d.toNat ≤ 102 := by decide
  have hle : c.toLower.toNat ≤ 102 := by simpa using List.all_eq_true.mp hall _ h
  rw [Char.utf8Size_eq_one_iff]
  show c.toNat ≤ 127
  rw [Text.toNat_toLower] at hle
  split_ifs at hle <;> omega

theorem mem_hexDigits_toChar (d : HexDigit) : d.toChar ∈ hexDigits :=
  mem_hexDigits_iff.mpr ⟨d, HexDigit.ofChar?_eq_some_iff.mpr rfl⟩

theorem toChar_ne_plus (d : HexDigit) : d.toChar ≠ '+' := by
  revert d
  decide

/-- Digits in either case. -/
theorem exists_digits_iff :
    (∃ ds : List HexDigit, cs.map Char.toLower = ds.map HexDigit.toChar) ↔
      cs.all fun c => c.toLower ∈ hexDigits := by
  have h : (∃ ds, (cs.map Char.toLower).mapM HexDigit.ofChar? = some ds) ↔ _ :=
    exists_mapM_ofChar?_iff
  simp only [mapM_ofChar?_eq_some_iff, List.forall_mem_map] at h
  rw [List.all_eq_true]
  simp only [decide_eq_true_eq, ← h, eq_comm (a := cs.map Char.toLower)]

theorem utf8Size_of_digits (h : cs.map Char.toLower = ds.map HexDigit.toChar) :
    ∀ c ∈ cs, c.utf8Size = 1 := by
  intro c hc
  have hmem : c.toLower ∈ ds.map HexDigit.toChar := h ▸ List.mem_map_of_mem hc
  obtain ⟨d, -, hd⟩ := List.mem_map.mp hmem
  exact utf8Size_of_hexDigit (hd ▸ mem_hexDigits_toChar d)

theorem length_of_digits (h : cs.map Char.toLower = ds.map HexDigit.toChar) :
    cs.length = ds.length := by
  rw [← List.length_map Char.toLower, h, List.length_map]

theorem byteLength_of_digits (h : cs.map Char.toLower = ds.map HexDigit.toChar) :
    byteLength cs = ds.length := by
  rw [Text.byteLength_of_ascii (utf8Size_of_digits h), length_of_digits h]

theorem radixValue_lt (h : ds.length ≤ 2) : radixValue ds < 256 := by
  match ds with
  | [] => decide
  | [d] =>
    show 16 * 0 + d.val < 256
    omega
  | [d, e] =>
    show 16 * (16 * 0 + d.val) + e.val < 256
    omega
  | _ :: _ :: _ :: _ => simp at h

/-- One digit, or two, make a byte; none of them is taken for a sign. -/
theorem byteOfRadix?_of_digits (h : cs.map Char.toLower = ds.map HexDigit.toChar) (hne : ds ≠ [])
    (hlength : ds.length ≤ 2) : byteOfRadix? cs = some (.ofNat (radixValue ds)) := by
  have hplus : cs.head? ≠ some '+' := by
    intro hhead
    have hmap := congrArg List.head? h
    rw [List.head?_map, List.head?_map, hhead] at hmap
    cases ds with
    | nil => exact hne rfl
    | cons d ds => exact toChar_ne_plus d (Option.some.inj hmap).symm
  rw [byteOfRadix?, if_neg hplus, h, mapM_ofChar?_eq_some_iff.mpr rfl]
  cases ds with
  | nil => exact absurd rfl hne
  | cons d ds => exact if_pos (radixValue_lt hlength)

theorem readSlice_of_digits (h : cs.map Char.toLower = ds.map HexDigit.toChar) (hk : 0 < k)
    (hk' : k ≤ 2) (hle : i + k ≤ ds.length) :
    slice? cs i (i + k) = some ((cs.drop i).take k) ∧
      byteOfRadix? ((cs.drop i).take k) = some (.ofNat (radixValue ((ds.drop i).take k))) := by
  have hdigits : ((cs.drop i).take k).map Char.toLower =
      ((ds.drop i).take k).map HexDigit.toChar := by
    rw [List.map_take, List.map_drop, h, List.map_take, List.map_drop]
  have hlength : ((ds.drop i).take k).length = k := by
    rw [List.length_take, List.length_drop]
    omega
  constructor
  · apply Text.slice?_of_ascii (utf8Size_of_digits h)
    rwa [length_of_digits h]
  · apply byteOfRadix?_of_digits hdigits
    · rw [← List.length_pos_iff, hlength]
      exact hk
    · rwa [hlength]

end Steps

/-! ## Its answers -/

section Answers
variable {cs : List Char} {ds : List HexDigit}

/-- Reading at equal distances gives the elements that stand there. -/
theorem mapM_range'_eq_ok {ε β : Type} {f : Nat → Except ε β} {bs : List β} {start step : Nat}
    (h : ∀ i b, bs[i]? = some b → f (start + step * i) = .ok b) :
    (List.range' start bs.length step).mapM f = .ok bs := by
  induction bs generalizing start with
  | nil => rfl
  | cons b bs ih =>
    have hrest : (List.range' (start + step) bs.length step).mapM f = .ok bs := by
      apply ih
      intro i b' hb
      rw [Nat.add_assoc, Nat.add_comm step, ← Nat.mul_succ]
      exact h (i + 1) b' (by rwa [List.getElem?_cons_succ])
    have hfirst : f start = .ok b := h 0 b rfl
    rw [List.length_cons, List.range'_succ, List.mapM_cons, hfirst, hrest]
    rfl

theorem length_of_mapM_eq_ok {ε α β : Type} {f : α → Except ε β} {as : List α} {bs : List β}
    (h : as.mapM f = .ok bs) : bs.length = as.length := by
  induction as generalizing bs with
  | nil =>
    cases h
    rfl
  | cons a as ih =>
    rw [List.mapM_cons] at h
    obtain ⟨b, -, h⟩ := exists_of_bind_eq_ok h
    obtain ⟨bs', hrest, h⟩ := exists_of_bind_eq_ok h
    cases h
    rw [List.length_cons, List.length_cons, ih hrest]

theorem timesSeventeen_digit (d : HexDigit) :
    timesSeventeen (.ofNat (radixValue [d])) = .ok (hexByte d d) := by
  revert d
  decide

theorem toNat_digit_mul_lt (d : HexDigit) : (UInt8.ofNat (radixValue [d])).toNat * 17 < 256 := by
  revert d
  decide

theorem readChannels_of_digits (h : cs.map Char.toLower = ds.map HexDigit.toChar)
    (hlength : ds.length = 3 ∨ ds.length = 4) :
    readChannels cs = .ok (ds.map fun d => hexByte d d) := by
  rw [readChannels, byteLength_of_digits h]
  simp only [if_pos hlength]
  rw [List.range_eq_range', ← List.length_map (fun d => hexByte d d)]
  apply mapM_range'_eq_ok
  intro i b hb
  rw [List.getElem?_map, Option.map_eq_some_iff] at hb
  obtain ⟨d, hd, rfl⟩ := hb
  obtain ⟨hi, hget⟩ := List.getElem?_eq_some_iff.mp hd
  obtain ⟨hslice, hbyte⟩ := readSlice_of_digits h Nat.one_pos (by decide) hi
  rw [List.take_one_drop_eq_of_lt_length hi, List.get_eq_getElem, hget] at hbyte
  rw [Nat.zero_add, Nat.one_mul, readSlice, hslice]
  simp only [hbyte]
  exact timesSeventeen_digit d

theorem take_drop_flatMap_pair {pairs : List (HexDigit × HexDigit)} {i : Nat}
    {high low : HexDigit} (h : pairs[i]? = some (high, low)) :
    ((pairs.flatMap fun (high, low) => [high, low]).drop (2 * i)).take 2 = [high, low] := by
  induction pairs generalizing i with
  | nil => cases h
  | cons pair pairs ih =>
    cases i with
    | zero =>
      obtain rfl : pair = (high, low) := by simpa using h
      rfl
    | succ i =>
      rw [List.getElem?_cons_succ] at h
      rw [Nat.mul_succ, Nat.add_comm, ← List.drop_drop, List.flatMap_cons]
      exact ih h

theorem length_flatMap_pair (pairs : List (HexDigit × HexDigit)) :
    (pairs.flatMap fun (high, low) => [high, low]).length = 2 * pairs.length := by
  induction pairs with
  | nil => rfl
  | cons pair pairs ih => rw [List.flatMap_cons, List.length_append, ih, List.length_cons,
      List.length_cons, List.length_cons, List.length_nil, Nat.mul_succ, Nat.add_comm]

theorem ofNat_radixValue_pair (high low : HexDigit) :
    UInt8.ofNat (radixValue [high, low]) = hexByte high low := by
  revert high low
  decide

theorem readChannels_of_pairs {pairs : List (HexDigit × HexDigit)}
    (h : cs.map Char.toLower =
      (pairs.flatMap fun (high, low) => [high, low]).map HexDigit.toChar)
    (hlength : pairs.length = 3 ∨ pairs.length = 4) :
    readChannels cs = .ok (pairs.map fun (high, low) => hexByte high low) := by
  have hflat := length_flatMap_pair pairs
  have hcount : (2 * pairs.length + 1) / 2 = pairs.length := by omega
  rw [readChannels, byteLength_of_digits h, hflat]
  simp only [if_neg (show ¬(2 * pairs.length = 3 ∨ 2 * pairs.length = 4) by omega),
    if_pos (show 2 * pairs.length = 6 ∨ 2 * pairs.length = 8 by omega), hcount]
  rw [← List.length_map (fun pair : HexDigit × HexDigit => hexByte pair.1 pair.2)]
  apply mapM_range'_eq_ok
  intro i b hb
  rw [List.getElem?_map, Option.map_eq_some_iff] at hb
  obtain ⟨⟨high, low⟩, hpair, rfl⟩ := hb
  obtain ⟨hi, -⟩ := List.getElem?_eq_some_iff.mp hpair
  obtain ⟨hslice, hbyte⟩ := readSlice_of_digits h Nat.two_pos le_rfl (i := 2 * i) (by omega)
  rw [take_drop_flatMap_pair hpair] at hbyte
  rw [Nat.zero_add, readSlice, hslice]
  simp only [hbyte, ofNat_radixValue_pair]

/-- The first three bytes read are there, and a fourth where the text has four or eight bytes. -/
theorem length_of_readChannels {bytes : List UInt8} (h : readChannels cs = .ok bytes) :
    3 ≤ bytes.length ∧ (3 < bytes.length ↔ byteLength cs = 4 ∨ byteLength cs = 8) := by
  unfold readChannels at h
  dsimp only at h
  by_cases hshort : byteLength cs = 3 ∨ byteLength cs = 4
  · rw [if_pos hshort] at h
    have hlength := length_of_mapM_eq_ok h
    rw [List.length_range] at hlength
    omega
  · rw [if_neg hshort] at h
    by_cases hlong : byteLength cs = 6 ∨ byteLength cs = 8
    · rw [if_pos hlong] at h
      have hlength := length_of_mapM_eq_ok h
      rw [List.length_range'] at hlength
      omega
    · rw [if_neg hlong] at h
      cases h

theorem readChannels_of_count (h : cs.map Char.toLower = ds.map HexDigit.toChar)
    (hcount : ds.length ∉ [3, 4, 6, 8]) :
    readChannels cs = .error (.fault (.digitCount ds.length)) := by
  simp only [List.mem_cons, List.not_mem_nil, or_false] at hcount
  rw [readChannels, byteLength_of_digits h]
  simp only [if_neg (show ¬(ds.length = 3 ∨ ds.length = 4) by omega),
    if_neg (show ¬(ds.length = 6 ∨ ds.length = 8) by omega)]

theorem readSlices_eq_of_digits (h : cs.map Char.toLower = ds.map HexDigit.toChar) :
    readSlices cs = (Rgba.readHex (cs.map Char.toLower)).mapError .fault := by
  rw [readSlices, if_pos (exists_digits_iff.mp ⟨ds, h⟩)]
  have hread := mapM_ofChar?_eq_some_iff.mpr h.symm
  by_cases hcount : ds.length ∈ [3, 4, 6, 8]
  · match ds with
    | [r, g, b] =>
      rw [readChannels_of_digits h (.inl rfl), Rgba.readHex, hread]
      rfl
    | [r, g, b, a] =>
      rw [readChannels_of_digits h (.inr rfl), Rgba.readHex, hread]
      rfl
    | [r, r', g, g', b, b'] =>
      have hpairs := @readChannels_of_pairs _ [(r, r'), (g, g'), (b, b')] h (.inl rfl)
      rw [hpairs, Rgba.readHex, hread]
      rfl
    | [r, r', g, g', b, b', a, a'] =>
      have hpairs := @readChannels_of_pairs _ [(r, r'), (g, g'), (b, b'), (a, a')] h (.inr rfl)
      rw [hpairs, Rgba.readHex, hread]
      rfl
    | [] | [_] | [_, _] | [_, _, _, _, _] | [_, _, _, _, _, _, _]
    | _ :: _ :: _ :: _ :: _ :: _ :: _ :: _ :: _ :: _ => simp at hcount
  · have hhex := readHex_of_mapM_eq_some hread
    rw [h, List.length_map, if_neg hcount] at hhex
    rw [readChannels_of_count h hcount, h, hhex]
    rfl

/-- A reader of slices answers every text, as `Rgba.readHex` does in lower case. -/
theorem readSlices_eq (cs : List Char) :
    readSlices cs = (Rgba.readHex (cs.map Char.toLower)).mapError .fault := by
  by_cases hdigits : ∃ ds : List HexDigit, cs.map Char.toLower = ds.map HexDigit.toChar
  · obtain ⟨ds, hds⟩ := hdigits
    exact readSlices_eq_of_digits hds
  · have hall : ¬cs.all fun c => c.toLower ∈ hexDigits := fun h => hdigits (exists_digits_iff.mpr h)
    have hnone : (cs.map Char.toLower).mapM HexDigit.ofChar? = none := by
      rw [Option.eq_none_iff_forall_ne_some]
      intro ds hds
      exact hdigits ⟨ds, (mapM_ofChar?_eq_some_iff.mp hds).symm⟩
    rw [readSlices, if_neg hall, Rgba.readHex, hnone]
    rfl

end Answers

/-! ## Color texts -/

theorem message_invalidComponent_ne (part : String) :
    (Fault.invalidComponent part).message ≠ "invalid hex digits" := by
  intro h
  have hninth : ("invalid component " ++ Text.quoted part).toList[8]? =
      "invalid hex digits".toList[8]? := congrArg (fun s : String => s.toList[8]?) h
  rw [String.toList_append, List.getElem?_append_left (by decide)] at hninth
  exact absurd hninth (by decide)

theorem FirstFault.message_ne_invalidDigits {cs : List Char} {fault : Fault}
    (h : FirstFault cs fault) : fault.message ≠ "invalid hex digits" := by
  intro hmessage
  have hletter := fault.letter_eq
  rw [hmessage] at hletter
  cases h with
  | invalidComponent => exact message_invalidComponent_ne _ hmessage
  | _ => simp [Fault.letter] at hletter

theorem toLower_normalForm (text : String) :
    (normalForm text).map Char.toLower = normalForm text := by
  rw [normalForm, List.map_map]
  exact List.map_congr_left fun c _ => Text.toLower_toLower c

/-- The hex digits of a color text may be read by slices of bytes. Every slice is within the digits
and between characters, and a number; a digit times seventeen is a byte; the first three bytes are
there, and the fourth where there are four or eight digits. So the reader of slices answers as
`Rgba.readHex`, and no text is rejected for what stands in a slice. -/
theorem hex_slices_safe (text : String) :
    (∀ e, Rgba.parse text = .error e → e.fault.message ≠ "invalid hex digits") ∧
    ∀ ds, normalForm text = '#' :: ds →
      Rgba.parse text = (Rgba.readHex ds).mapError (⟨·, text⟩) ∧
      readSlices ds = (Rgba.readHex ds).mapError .fault ∧
      ((∀ c ∈ ds, c ∈ hexDigits) →
        byteLength ds = ds.length ∧
        (byteLength ds ∈ [3, 4] → ∀ i < byteLength ds, ∃ part d,
          slice? ds i (i + 1) = some part ∧ byteOfRadix? part = some d ∧ d.toNat * 17 < 256) ∧
        (byteLength ds ∈ [6, 8] → ∀ i, 2 * i < byteLength ds → ∃ part b,
          slice? ds (2 * i) (2 * i + 2) = some part ∧ byteOfRadix? part = some b)) ∧
      ∀ bytes, readChannels ds = .ok bytes →
        3 ≤ bytes.length ∧ (3 < bytes.length ↔ byteLength ds = 4 ∨ byteLength ds = 8) := by
  refine ⟨fun e h => (parse_eq_error_iff.mp h).2.message_ne_invalidDigits, ?_⟩
  intro cs hcs
  have hlower : cs.map Char.toLower = cs := by
    have h := toLower_normalForm text
    rw [hcs, List.map_cons] at h
    exact (List.cons.inj h).2
  refine ⟨?_, ?_, ?_, fun bytes => length_of_readChannels⟩
  · rw [Rgba.parse, hcs, read_hex]
  · rw [readSlices_eq, hlower]
  · intro hdigit
    obtain ⟨ds, hds⟩ := exists_mapM_ofChar?_iff.mpr hdigit
    have h : cs.map Char.toLower = ds.map HexDigit.toChar := by
      rw [hlower, mapM_ofChar?_eq_some_iff.mp hds]
    have hlength := byteLength_of_digits h
    rw [hlength]
    refine ⟨(length_of_digits h).symm, fun _ i hi => ?_, fun hlong i hi => ?_⟩
    · obtain ⟨hslice, hbyte⟩ := readSlice_of_digits h Nat.one_pos (by decide) hi
      refine ⟨_, _, hslice, hbyte, ?_⟩
      rw [List.take_one_drop_eq_of_lt_length hi]
      exact toNat_digit_mul_lt _
    · have heven : 2 * i + 2 ≤ ds.length := by
        simp only [List.mem_cons, List.not_mem_nil, or_false] at hlong
        omega
      obtain ⟨hslice, hbyte⟩ := readSlice_of_digits h Nat.two_pos le_rfl heven
      exact ⟨_, _, hslice, hbyte⟩

/-- Digits in upper case, with blanks around the text. -/
theorem hex_slices_safe_of_alpha :
    ∃ ds, normalForm " #F80a\t" = '#' :: ds ∧ slice? ds 3 4 = some ['a'] ∧
      byteOfRadix? ['a'] = some 10 ∧
      readSlices ds = .ok ⟨255, 136, 0, alphaOfByte 170⟩ := by
  have hform : normalForm " #F80a\t" = '#' :: "f80a".toList := by decide +kernel
  obtain ⟨-, h⟩ := hex_slices_safe " #F80a\t"
  obtain ⟨-, hread, -, -⟩ := h _ hform
  refine ⟨_, hform, by decide +kernel, by decide +kernel, ?_⟩
  rw [hread]
  rfl

end Color

end PointSymbol
