import Mathlib.Data.List.Infix
import Mathlib.Data.Rat.Floor
import PointSymbol.Color.Css
import PointSymbol.Proofs.Binary.Exact
import PointSymbol.Proofs.Decimal.Grammar
import PointSymbol.Proofs.Decimal.Value

/-!
# Functional colors

A functional color is a call of `rgb` or `rgba` with three or four decimals between commas. The
reader accepts these calls and no others, whatever blanks stand around the decimals.
-/

namespace PointSymbol.Color
open Decimal (Written WrittenSign WrittenDigits WrittenExponent)
open Text (Blank Tight isBlank)

/-- A decimal among blanks, with the finite number nearest to it. A zero has the sign of the
decimal. -/
inductive Component : List Char → Double → Prop
  | mk {before core after : List Char} {d : Decimal} {x : Double} (hbefore : Blank before)
      (hwritten : Written core d) (hafter : Blank after) (hsign : x.negative = d.negative)
      (hnearest : x.IsNearest d.toRat) (hfinite : x.isFinite) :
      Component (before ++ core ++ after) x

inductive Call : List Char → List Double → Prop
  | mk {name blanks : List Char} {parts : List (List Char)} {xs : List Double}
      (hname : name = ['r', 'g', 'b'] ∨ name = ['r', 'g', 'b', 'a']) (hblanks : Blank blanks)
      (hparts : List.Forall₂ Component parts xs) (hcomma : ∀ part ∈ parts, ',' ∉ part) :
      Call (name ++ blanks ++ '(' :: ([','].intercalate parts ++ [')'])) xs

/-- A byte is the clamped number, rounded with halves going up. -/
def IsChannel (x : Double) (b : UInt8) : Prop := b.toNat = ⌊max 0 (min x.toRat 255) + 1 / 2⌋₊

/-- Alpha is the number itself inside the unit interval. -/
def IsAlpha (x a : Double) : Prop :=
  x.toRat < 0 ∧ a = 0 ∨ 1 < x.toRat ∧ a = 1 ∨ 0 ≤ x.toRat ∧ x.toRat ≤ 1 ∧ a = x

inductive FunctionForm (c : Rgba) (cs : List Char) : Prop
  | solid {r g b : Double} (hcall : Call cs [r, g, b]) (hred : IsChannel r c.red)
      (hgreen : IsChannel g c.green) (hblue : IsChannel b c.blue) (halpha : c.alpha = 1)
  | alpha {r g b a : Double} (hcall : Call cs [r, g, b, a]) (hred : IsChannel r c.red)
      (hgreen : IsChannel g c.green) (hblue : IsChannel b c.blue) (halpha : IsAlpha a c.alpha)

/-! ## Characters of decimals -/

def decimalMarks : List Char := ['+', '-', '.', 'e', 'E']

theorem char_of_writtenSign {cs : List Char} {negative : Bool} (h : WrittenSign cs negative) :
    ∀ c ∈ cs, c ∈ decimalMarks := by
  intro c hc
  cases h with
  | none => cases hc
  | plus | minus => rw [List.mem_singleton.mp hc]; decide

theorem char_of_writtenDigits {cs whole fraction : List Char}
    (h : WrittenDigits cs whole fraction) : ∀ c ∈ cs, c.isDigit ∨ c ∈ decimalMarks := by
  intro c hc
  cases h with
  | integer hdigit => exact .inl (hdigit c hc)
  | point hdigit =>
    simp only [List.mem_append, List.mem_cons] at hc hdigit
    rcases hc with hc | rfl | hc
    · exact .inl (hdigit c (.inl hc))
    · exact .inr (by decide)
    · exact .inl (hdigit c (.inr hc))

theorem char_of_writtenExponent {cs : List Char} {e : Int} (h : WrittenExponent cs e) :
    ∀ c ∈ cs, c.isDigit ∨ c ∈ decimalMarks := by
  intro c hc
  cases h with
  | none => cases hc
  | power hletter hsign hdigit =>
    simp only [List.mem_cons, List.mem_append] at hc
    rcases hc with rfl | hc | hc
    · rcases hletter with rfl | rfl <;> exact .inr (by decide)
    · exact .inr (char_of_writtenSign hsign c hc)
    · exact .inl (hdigit c hc)

theorem char_of_written {cs : List Char} {d : Decimal} (h : Written cs d) :
    ∀ c ∈ cs, c.isDigit ∨ c ∈ decimalMarks := by
  obtain ⟨hsign, hdigits, hexponent⟩ := h
  intro c hc
  simp only [List.mem_append] at hc
  rcases hc with (hc | hc) | hc
  · exact .inr (char_of_writtenSign hsign c hc)
  · exact char_of_writtenDigits hdigits c hc
  · exact char_of_writtenExponent hexponent c hc

theorem tight_of_written {cs : List Char} {d : Decimal} (h : Written cs d) : Tight cs := by
  apply Text.tight_of_forall
  intro c hc
  rcases char_of_written h c hc with hdigit | hmark
  · exact Text.isBlank_of_isDigit hdigit
  · have hall : decimalMarks.all fun c => !isBlank c := by decide
    simpa using List.all_eq_true.mp hall c hmark

/-! ## Components -/

theorem component?_eq_some_iff {cs : List Char} {x : Double} :
    component? cs = some x ↔
      ∃ d, Written cs d ∧ x.negative = d.negative ∧ x.IsNearest d.toRat ∧ x.isFinite := by
  simp only [component?, Option.filter_eq_some_iff, Option.map_eq_some_iff,
    Decimal.read?_eq_some_iff, Decimal.toBinary_eq_iff]
  constructor
  · rintro ⟨⟨d, hwritten, hsign, hnearest⟩, hfinite⟩
    exact ⟨d, hwritten, hsign, hnearest, hfinite⟩
  · rintro ⟨d, hwritten, hsign, hnearest, hfinite⟩
    exact ⟨⟨d, hwritten, hsign, hnearest⟩, hfinite⟩

theorem component?_trim_eq_some_iff {cs : List Char} {x : Double} :
    component? (Text.trim cs) = some x ↔ Component cs x := by
  rw [component?_eq_some_iff]
  constructor
  · rintro ⟨d, hwritten, hsign, hnearest, hfinite⟩
    have htrims := Text.trims_iff.mpr (Eq.refl (Text.trim cs))
    generalize Text.trim cs = core at hwritten htrims
    obtain ⟨hbefore, -, hafter⟩ := htrims
    exact .mk hbefore hwritten hafter hsign hnearest hfinite
  · rintro ⟨hbefore, hwritten, hafter, hsign, hnearest, hfinite⟩
    rw [Text.trim_eq_of_trims (.mk hbefore (tight_of_written hwritten) hafter)]
    exact ⟨_, hwritten, hsign, hnearest, hfinite⟩

theorem readComponent_eq_ok_iff {cs : List Char} {x : Double} :
    readComponent (Text.trim cs) = .ok x ↔ Component cs x := by
  rw [← component?_trim_eq_some_iff, readComponent]
  cases component? (Text.trim cs) with
  | none => simp
  | some y => simp

/-- The reader finds a component between commas. -/
theorem comma_not_mem_of_component {cs : List Char} {x : Double} (h : Component cs x) :
    ',' ∉ cs := by
  obtain ⟨hbefore, hwritten, hafter, -, -, -⟩ := h
  have hblank : isBlank ',' = false := by decide
  have hmark : ¬(Char.isDigit ',' ∨ ',' ∈ decimalMarks) := by decide
  intro hcomma
  simp only [List.mem_append] at hcomma
  rcases hcomma with (hcomma | hcomma) | hcomma
  · exact Bool.false_ne_true (hblank.symm.trans (hbefore _ hcomma))
  · exact hmark (char_of_written hwritten _ hcomma)
  · exact Bool.false_ne_true (hblank.symm.trans (hafter _ hcomma))

/-! ## Bytes as numbers -/

section Bytes
variable {n : Nat}

theorem byte_spec (hn : n ≤ 255) :
    (Binary.ofNat n : Double).isFinite ∧ (Binary.ofNat n : Double).toRat = n := by
  have hfraction : 255 ≤ 2 * 2 ^ Binary.Format.double.fraction := by decide +kernel
  have hexponent : 255 < 2 ^ 2 ^ (Binary.Format.double.exponent - 1) := by decide +kernel
  exact Binary.ofNat_spec (hn.trans hfraction) (hn.trans_lt hexponent)

theorem isFinite_byte (hn : n ≤ 255) : (Binary.ofNat n : Double).isFinite :=
  (byte_spec hn).1

theorem isNaN_byte (hn : n ≤ 255) : (Binary.ofNat n : Double).isNaN = false :=
  Binary.isNaN_of_isFinite (isFinite_byte hn)

theorem toRat_byte (hn : n ≤ 255) : (Binary.ofNat n : Double).toRat = n :=
  (byte_spec hn).2

theorem toRat_double_zero : (0 : Double).toRat = 0 := by
  exact_mod_cast toRat_byte (Nat.zero_le 255)

theorem toRat_double_one : (1 : Double).toRat = 1 := by
  exact_mod_cast toRat_byte (show 1 ≤ 255 by decide)

theorem toRat_double_255 : (255 : Double).toRat = 255 := by
  exact_mod_cast toRat_byte le_rfl

/-! Rounding does not pass a byte. -/

theorem toRat_le_byte {x : Double} {q : ℚ} (h : x.IsNearest q) (hn : n ≤ 255) (hq : q ≤ n) :
    x.toRat ≤ n := by
  have hle := h.toRat_le (isNaN_byte hn) (hq.trans_eq (toRat_byte hn).symm)
  rwa [toRat_byte hn] at hle

theorem byte_le_toRat {x : Double} {q : ℚ} (h : x.IsNearest q) (hn : n ≤ 255) (hq : n ≤ q) :
    n ≤ x.toRat := by
  have hle := h.le_toRat (isNaN_byte hn) ((toRat_byte hn).trans_le hq)
  rwa [toRat_byte hn] at hle

theorem clamp_byte_spec {x : Double} (hx : x.isFinite) (hn : n ≤ 255) :
    (x.clamp 0 (OfNat.ofNat n)).isNaN = false ∧
      (x.clamp 0 (OfNat.ofNat n)).toRat = max 0 (min x.toRat n) := by
  have hnan := Binary.isNaN_of_isFinite hx
  have hzero : (0 : Double).isNaN = false := isNaN_byte (Nat.zero_le 255)
  have hle : (0 : Double).toRat ≤ (Binary.ofNat n : Double).toRat := by
    rw [toRat_double_zero, toRat_byte hn]
    exact n.cast_nonneg
  have hclamp := Binary.toRat_clamp hnan hzero (isNaN_byte hn) hle
  rw [toRat_double_zero, toRat_byte hn] at hclamp
  exact ⟨Binary.isNaN_clamp hnan hzero (isNaN_byte hn), hclamp⟩

end Bytes

/-! ## Channels -/

theorem unit_iff {x : Double} :
    0 ≤ x ∧ x ≤ 1 ↔ x.isNaN = false ∧ 0 ≤ x.toRat ∧ x.toRat ≤ 1 := by
  have hzero : (0 : Double).isNaN = false := isNaN_byte (Nat.zero_le 255)
  have hone : (1 : Double).isNaN = false := isNaN_byte (show 1 ≤ 255 by decide)
  rw [Binary.le_iff_toRat_le, Binary.le_iff_toRat_le, toRat_double_zero, toRat_double_one]
  simp only [hzero, hone, true_and]
  constructor
  · rintro ⟨⟨hnan, hle⟩, -, hle'⟩
    exact ⟨hnan, hle, hle'⟩
  · rintro ⟨hnan, hle, hle'⟩
    exact ⟨⟨hnan, hle⟩, hnan, hle'⟩

theorem isFinite_of_unit {x : Double} (h : 0 ≤ x ∧ x ≤ 1) : x.isFinite := by
  have hlt : 1 < 2 ^ 2 ^ (Binary.Format.double.exponent - 1) := by decide +kernel
  obtain ⟨-, hzero, hone⟩ := unit_iff.mp h
  apply Binary.isFinite_of_abs_toRat_le hlt
  rw [abs_of_nonneg hzero]
  exact_mod_cast hone

theorem channelByte_eq_iff {x : Double} {b : UInt8} (hx : x.isFinite) :
    channelByte x = b ↔ IsChannel x b := by
  have hclamp : (x.clamp 0 255).toRat = max 0 (min x.toRat 255) := by
    exact_mod_cast (clamp_byte_spec hx le_rfl).2
  have hnearest : (x.clamp 0 255).nearestNat = ⌊max 0 (min x.toRat 255) + 1 / 2⌋₊ := by
    rw [Binary.nearestNat_eq_floor (by rw [hclamp]; exact le_max_left _ _), hclamp]
  have hlt : ⌊max 0 (min x.toRat 255) + 1 / 2⌋₊ < 256 := by
    rw [Nat.floor_lt (by positivity)]
    have : max 0 (min x.toRat 255) ≤ 255 := max_le (by norm_num) (min_le_right _ _)
    push_cast
    linarith
  rw [IsChannel, channelByte, hnearest, ← UInt8.toNat_inj, UInt8.toNat_ofNat_of_lt' hlt, eq_comm]

theorem clamp_eq_iff {x a : Double} (hx : x.isFinite) : x.clamp 0 1 = a ↔ IsAlpha x a := by
  have hnan := Binary.isNaN_of_isFinite hx
  have hzero := Binary.lt_iff_toRat_lt (x := x) (y := 0) hnan (isNaN_byte (Nat.zero_le 255))
  have hone := Binary.lt_iff_toRat_lt (x := 1) (y := x) (isNaN_byte (by decide)) hnan
  rw [toRat_double_zero] at hzero
  rw [toRat_double_one] at hone
  simp only [Binary.clamp, hzero, hone, IsAlpha]
  by_cases h0 : x.toRat < 0
  · have h1 : ¬1 < x.toRat := by linarith
    simp [h0, h1, h0.not_ge, eq_comm]
  · by_cases h1 : 1 < x.toRat
    · simp [h0, h1, h1.not_ge, eq_comm]
    · simp [h0, h1, not_lt.mp h0, not_lt.mp h1, eq_comm]

/-! ## Calls -/

section Calls
variable {cs rest args : List Char}

theorem eq_name_append_of_prefix
    (h : (['r', 'g', 'b', 'a'].isPrefixOf? cs <|> ['r', 'g', 'b'].isPrefixOf? cs) = some rest) :
    ∃ name, (name = ['r', 'g', 'b'] ∨ name = ['r', 'g', 'b', 'a']) ∧ cs = name ++ rest := by
  cases hlong : ['r', 'g', 'b', 'a'].isPrefixOf? cs with
  | some rest' =>
    rw [hlong] at h
    obtain rfl : rest' = rest := Option.some.inj h
    exact ⟨_, .inr rfl, (List.append_eq_of_isPrefixOf?_eq_some hlong).symm⟩
  | none =>
    rw [hlong] at h
    exact ⟨_, .inl rfl, (List.append_eq_of_isPrefixOf?_eq_some h).symm⟩

/-- The longer name does not fit where the shorter one is followed by blanks or a parenthesis. -/
theorem prefix_of_name_append {name : List Char}
    (hname : name = ['r', 'g', 'b'] ∨ name = ['r', 'g', 'b', 'a']) (hrest : 'a' ∉ rest.head?) :
    (['r', 'g', 'b', 'a'].isPrefixOf? (name ++ rest) <|>
      ['r', 'g', 'b'].isPrefixOf? (name ++ rest)) = some rest := by
  rcases hname with rfl | rfl
  · have hlong : ['r', 'g', 'b', 'a'].isPrefixOf? (['r', 'g', 'b'] ++ rest) = none := by
      cases rest with
      | nil => rfl
      | cons c cs =>
        have hc : 'a' ≠ c := by simpa [eq_comm] using hrest
        simp [List.isPrefixOf?, hc]
    have hshort : ['r', 'g', 'b'].isPrefixOf? (['r', 'g', 'b'] ++ rest) = some rest := by simp
    rw [hlong, hshort]
    rfl
  · have hlong : ['r', 'g', 'b', 'a'].isPrefixOf? (['r', 'g', 'b', 'a'] ++ rest) = some rest := by
      simp
    rw [hlong]
    rfl

theorem inner_eq_some_iff :
    (['('].isPrefixOf? (Text.trimStart rest)).bind [')'].isSuffixOf? = some args ↔
      ∃ blanks, Blank blanks ∧ rest = blanks ++ '(' :: (args ++ [')']) := by
  simp only [Option.bind_eq_some_iff, List.isPrefixOf?_eq_some_iff_append_eq,
    List.isSuffixOf?_eq_some_iff_append_eq]
  constructor
  · rintro ⟨_, htrim, rfl⟩
    obtain ⟨blanks, more, rfl, hblanks, hmore⟩ := Text.exists_run isBlank rest
    rw [Text.trimStart, Text.dropWhile_append_of_head hblanks hmore] at htrim
    exact ⟨blanks, hblanks, by rw [← htrim]; rfl⟩
  · rintro ⟨blanks, hblanks, rfl⟩
    have hparen : ∀ c ∈ ('(' :: (args ++ [')'])).head?, isBlank c = false := by
      simp only [List.head?_cons, Option.mem_some_iff, forall_eq']
      decide
    exact ⟨_, (Text.dropWhile_append_of_head hblanks hparen).symm, rfl⟩

theorem arguments?_eq_some_iff :
    arguments? cs = some args ↔
      ∃ name blanks, (name = ['r', 'g', 'b'] ∨ name = ['r', 'g', 'b', 'a']) ∧ Blank blanks ∧
        cs = name ++ blanks ++ '(' :: (args ++ [')']) := by
  rw [arguments?, Option.bind_eq_bind, Option.bind_eq_some_iff]
  constructor
  · rintro ⟨rest, hprefix, hinner⟩
    obtain ⟨name, hname, rfl⟩ := eq_name_append_of_prefix hprefix
    obtain ⟨blanks, hblanks, rfl⟩ := inner_eq_some_iff.mp hinner
    exact ⟨name, blanks, hname, hblanks, (List.append_assoc ..).symm⟩
  · rintro ⟨name, blanks, hname, hblanks, rfl⟩
    refine ⟨blanks ++ '(' :: (args ++ [')']), ?_, inner_eq_some_iff.mpr ⟨blanks, hblanks, rfl⟩⟩
    rw [List.append_assoc]
    apply prefix_of_name_append hname
    intro ha
    cases blanks with
    | nil => cases ha
    | cons b bs =>
      obtain rfl : b = 'a' := by simpa using ha
      have := hblanks 'a' (by simp)
      cases this

end Calls

/-! ## Arguments -/

theorem not_mem_of_mem_splitOn {a : Char} {cs part : List Char} (h : part ∈ cs.splitOn a) :
    a ∉ part := by
  induction cs generalizing part with
  | nil =>
    obtain rfl : part = [] := by simpa using h
    simp
  | cons c cs ih =>
    rw [List.splitOn_cons_eq_if_modifyHead] at h
    split at h
    · rcases List.mem_cons.mp h with rfl | h
      · simp
      · exact ih h
    · next hc =>
      cases hsplit : cs.splitOn a with
      | nil => exact absurd hsplit (List.splitOn_ne_nil a cs)
      | cons first rest =>
        rw [hsplit, List.modifyHead_cons] at h
        rcases List.mem_cons.mp h with rfl | h
        · have hfirst : a ∉ first := ih (by simp [hsplit])
          have hne : c ≠ a := by simpa using hc
          simp [hfirst, hne.symm]
        · exact ih (by simp [hsplit, h])

theorem exists_of_bind_eq_ok {ε α β : Type} {m : Except ε α} {f : α → Except ε β} {b : β}
    (h : m >>= f = .ok b) : ∃ a, m = .ok a ∧ f a = .ok b := by
  cases m with
  | error e => cases h
  | ok a => exact ⟨a, rfl, h⟩

theorem components_of_readComponents {args : List Char} {c : Rgba}
    (h : Rgba.readComponents args = .ok c) :
    (∃ r g b, List.Forall₂ Component (args.splitOn ',') [r, g, b] ∧
      c = .solid (channelByte r) (channelByte g) (channelByte b)) ∨
    ∃ r g b a, List.Forall₂ Component (args.splitOn ',') [r, g, b, a] ∧
      c = ⟨channelByte r, channelByte g, channelByte b, a.clamp 0 1⟩ := by
  unfold Rgba.readComponents at h
  generalize args.splitOn ',' = parts at *
  split at h
  · next hparts =>
    simp only [List.map_eq_cons_iff, List.map_eq_nil_iff] at hparts
    obtain ⟨p, _, rfl, rfl, q, _, rfl, rfl, s, _, rfl, rfl, rfl⟩ := hparts
    obtain ⟨r, hr, h⟩ := exists_of_bind_eq_ok h
    obtain ⟨g, hg, h⟩ := exists_of_bind_eq_ok h
    obtain ⟨b, hb, h⟩ := exists_of_bind_eq_ok h
    rw [readComponent_eq_ok_iff] at hr hg hb
    exact .inl ⟨r, g, b, by simp [hr, hg, hb], (Except.ok.inj h).symm⟩
  · next hparts =>
    simp only [List.map_eq_cons_iff, List.map_eq_nil_iff] at hparts
    obtain ⟨p, _, rfl, rfl, q, _, rfl, rfl, s, _, rfl, rfl, t, _, rfl, rfl, rfl⟩ := hparts
    obtain ⟨r, hr, h⟩ := exists_of_bind_eq_ok h
    obtain ⟨g, hg, h⟩ := exists_of_bind_eq_ok h
    obtain ⟨b, hb, h⟩ := exists_of_bind_eq_ok h
    obtain ⟨a, ha, h⟩ := exists_of_bind_eq_ok h
    rw [readComponent_eq_ok_iff] at hr hg hb ha
    exact .inr ⟨r, g, b, a, by simp [hr, hg, hb, ha], (Except.ok.inj h).symm⟩
  · cases h

theorem readComponents_of_solid {args : List Char} {r g b : Double}
    (h : List.Forall₂ Component (args.splitOn ',') [r, g, b]) :
    Rgba.readComponents args = .ok (.solid (channelByte r) (channelByte g) (channelByte b)) := by
  unfold Rgba.readComponents
  generalize args.splitOn ',' = parts at *
  simp only [List.forall₂_cons_right_iff, List.forall₂_nil_right_iff] at h
  obtain ⟨p, _, hr, ⟨q, _, hg, ⟨s, _, hb, rfl, rfl⟩, rfl⟩, rfl⟩ := h
  rw [← readComponent_eq_ok_iff] at hr hg hb
  simp only [List.map_cons, List.map_nil, hr, hg, hb]
  rfl

theorem readComponents_of_alpha {args : List Char} {r g b a : Double}
    (h : List.Forall₂ Component (args.splitOn ',') [r, g, b, a]) :
    Rgba.readComponents args =
      .ok ⟨channelByte r, channelByte g, channelByte b, a.clamp 0 1⟩ := by
  unfold Rgba.readComponents
  generalize args.splitOn ',' = parts at *
  simp only [List.forall₂_cons_right_iff, List.forall₂_nil_right_iff] at h
  obtain ⟨p, _, hr, ⟨q, _, hg, ⟨s, _, hb, ⟨t, _, ha, rfl, rfl⟩, rfl⟩, rfl⟩, rfl⟩ := h
  rw [← readComponent_eq_ok_iff] at hr hg hb ha
  simp only [List.map_cons, List.map_nil, hr, hg, hb, ha]
  rfl

/-- A call names the arguments that the reader finds. -/
theorem call_iff {cs : List Char} {xs : List Double} (hxs : xs ≠ []) :
    Call cs xs ↔
      ∃ args, arguments? cs = some args ∧ List.Forall₂ Component (args.splitOn ',') xs := by
  constructor
  · rintro ⟨hname, hblanks, hparts, hcomma⟩
    refine ⟨_, arguments?_eq_some_iff.mpr ⟨_, _, hname, hblanks, rfl⟩, ?_⟩
    rwa [List.splitOn_intercalate ',' hcomma]
    rintro rfl
    exact hxs (List.forall₂_nil_left_iff.mp hparts)
  · rintro ⟨args, hargs, hparts⟩
    obtain ⟨name, blanks, hname, hblanks, rfl⟩ := arguments?_eq_some_iff.mp hargs
    have hjoin : List.intercalate [','] (args.splitOn ',') = args := List.intercalate_splitOn ','
    rw [← hjoin]
    exact .mk hname hblanks hparts fun part => not_mem_of_mem_splitOn

theorem isFinite_of_component {cs : List Char} {x : Double} (h : Component cs x) : x.isFinite := by
  obtain ⟨-, -, -, -, -, hfinite⟩ := h
  exact hfinite

theorem isFinite_of_forall₂ {parts : List (List Char)} {xs : List Double}
    (h : List.Forall₂ Component parts xs) : ∀ x ∈ xs, x.isFinite := by
  induction h with
  | nil => simp
  | cons hpart _ ih => exact List.forall_mem_cons.mpr ⟨isFinite_of_component hpart, ih⟩

theorem functionForm_iff {cs : List Char} {c : Rgba} :
    FunctionForm c cs ↔ ∃ args, arguments? cs = some args ∧ Rgba.readComponents args = .ok c := by
  constructor
  · intro h
    obtain ⟨red, green, blue, alpha⟩ := c
    cases h with
    | solid hcall hred hgreen hblue halpha =>
      obtain ⟨args, hargs, hparts⟩ := (call_iff (by simp)).mp hcall
      have hfinite := isFinite_of_forall₂ hparts
      obtain rfl := (channelByte_eq_iff (hfinite _ (by simp))).mpr hred
      obtain rfl := (channelByte_eq_iff (hfinite _ (by simp))).mpr hgreen
      obtain rfl := (channelByte_eq_iff (hfinite _ (by simp))).mpr hblue
      obtain rfl : alpha = 1 := halpha
      exact ⟨args, hargs, readComponents_of_solid hparts⟩
    | alpha hcall hred hgreen hblue halpha =>
      obtain ⟨args, hargs, hparts⟩ := (call_iff (by simp)).mp hcall
      have hfinite := isFinite_of_forall₂ hparts
      obtain rfl := (channelByte_eq_iff (hfinite _ (by simp))).mpr hred
      obtain rfl := (channelByte_eq_iff (hfinite _ (by simp))).mpr hgreen
      obtain rfl := (channelByte_eq_iff (hfinite _ (by simp))).mpr hblue
      obtain rfl := (clamp_eq_iff (hfinite _ (by simp))).mpr halpha
      exact ⟨args, hargs, readComponents_of_alpha hparts⟩
  · rintro ⟨args, hargs, h⟩
    rcases components_of_readComponents h with ⟨r, g, b, hparts, rfl⟩ | ⟨r, g, b, a, hparts, rfl⟩
    · have hfinite := isFinite_of_forall₂ hparts
      exact .solid ((call_iff (by simp)).mpr ⟨args, hargs, hparts⟩)
        ((channelByte_eq_iff (hfinite r (by simp))).mp rfl)
        ((channelByte_eq_iff (hfinite g (by simp))).mp rfl)
        ((channelByte_eq_iff (hfinite b (by simp))).mp rfl) rfl
    · have hfinite := isFinite_of_forall₂ hparts
      exact .alpha ((call_iff (by simp)).mpr ⟨args, hargs, hparts⟩)
        ((channelByte_eq_iff (hfinite r (by simp))).mp rfl)
        ((channelByte_eq_iff (hfinite g (by simp))).mp rfl)
        ((channelByte_eq_iff (hfinite b (by simp))).mp rfl)
        ((clamp_eq_iff (hfinite a (by simp))).mp rfl)

end PointSymbol.Color
