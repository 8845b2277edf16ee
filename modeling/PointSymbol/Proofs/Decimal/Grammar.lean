import PointSymbol.Decimal.Reader
import PointSymbol.Proofs.Text.Spelling

/-!
# The grammar of written decimals

`Written cs d` says how a text spells a decimal. `read?_eq_some_iff`: the reader accepts the texts
of the grammar and no others, each with the decimal that it spells.
-/

namespace PointSymbol.Decimal

inductive WrittenSign : List Char → Bool → Prop
  | none : WrittenSign [] false
  | plus : WrittenSign ['+'] false
  | minus : WrittenSign ['-'] true

/-- Digits before and after an optional point, at least one in all. -/
inductive WrittenDigits : List Char → List Char → List Char → Prop
  | integer {whole : List Char} (hdigit : ∀ c ∈ whole, c.isDigit) (hne : whole ≠ []) :
      WrittenDigits whole whole []
  | point {whole fraction : List Char} (hdigit : ∀ c ∈ whole ++ fraction, c.isDigit)
      (hne : whole ++ fraction ≠ []) :
      WrittenDigits (whole ++ '.' :: fraction) whole fraction

inductive WrittenExponent : List Char → Int → Prop
  | none : WrittenExponent [] 0
  | power {letter : Char} {sign digits : List Char} {negative : Bool}
      (hletter : letter = 'e' ∨ letter = 'E') (hsign : WrittenSign sign negative)
      (hdigit : ∀ c ∈ digits, c.isDigit) (hne : digits ≠ []) :
      WrittenExponent (letter :: (sign ++ digits))
        (if negative then -(ofDigits digits : Int) else ofDigits digits)

inductive Written : List Char → Decimal → Prop
  | mk {sign digits exponent whole fraction : List Char} {negative : Bool} {e : Int}
      (hsign : WrittenSign sign negative) (hdigits : WrittenDigits digits whole fraction)
      (hexponent : WrittenExponent exponent e) :
      Written (sign ++ digits ++ exponent)
        ⟨negative, ofDigits (whole ++ fraction), e - fraction.length⟩

/-! ## Signs -/

theorem readSign_append {sign cs : List Char} {negative : Bool} (h : WrittenSign sign negative)
    (hcs : ∀ c ∈ cs.head?, c ≠ '-' ∧ c ≠ '+') : readSign (sign ++ cs) = (negative, cs) := by
  cases h with
  | none =>
    cases cs with
    | nil => rfl
    | cons c cs =>
      obtain ⟨hminus, hplus⟩ := hcs c rfl
      rw [List.nil_append, readSign]
      · simpa using hminus
      · simpa using hplus
  | plus => rfl
  | minus => rfl

theorem exists_readSign (cs : List Char) :
    ∃ sign, cs = sign ++ (readSign cs).2 ∧ WrittenSign sign (readSign cs).1 := by
  unfold readSign
  split
  · exact ⟨['-'], rfl, .minus⟩
  · exact ⟨['+'], rfl, .plus⟩
  · exact ⟨[], rfl, .none⟩

theorem ne_sign_of_isDigit {c : Char} (h : c.isDigit) : c ≠ '-' ∧ c ≠ '+' := by
  constructor <;> rintro rfl <;> simp at h

/-! ## Digits -/

theorem readDigits_append {ds cs : List Char} (hd : ∀ c ∈ ds, c.isDigit)
    (hcs : ∀ c ∈ cs.head?, c.isDigit = false) : readDigits (ds ++ cs) = (ds, cs) := by
  rw [readDigits, Text.takeWhile_append_of_head hd hcs, Text.dropWhile_append_of_head hd hcs]

theorem readDigits_append_eq (cs : List Char) : (readDigits cs).1 ++ (readDigits cs).2 = cs :=
  List.takeWhile_append_dropWhile

theorem isDigit_of_mem_readDigits {cs : List Char} {c : Char} (h : c ∈ (readDigits cs).1) :
    c.isDigit :=
  List.mem_takeWhile_imp h

theorem readFraction_of_ne_point {cs : List Char} (h : ∀ c ∈ cs.head?, c ≠ '.') :
    readFraction cs = ([], cs) := by
  cases cs with
  | nil => rfl
  | cons c cs =>
    have hc := h c rfl
    rw [readFraction]
    simpa using hc

theorem head_of_writtenDigits {cs whole fraction rest : List Char}
    (h : WrittenDigits cs whole fraction) : ∀ c ∈ (cs ++ rest).head?, c ≠ '-' ∧ c ≠ '+' := by
  intro c hc
  cases h with
  | integer hdigit hne =>
    cases cs with
    | nil => exact absurd rfl hne
    | cons d ds =>
      obtain rfl : d = c := by simpa using hc
      exact ne_sign_of_isDigit (hdigit d (by simp))
  | point hdigit hne =>
    cases whole with
    | nil =>
      obtain rfl : '.' = c := by simpa using hc
      decide
    | cons d ds =>
      obtain rfl : d = c := by simpa using hc
      exact ne_sign_of_isDigit (hdigit d (by simp))

/-! ## Exponents -/

theorem toLower_eq_e_iff {c : Char} : c.toLower = 'e' ↔ c = 'e' ∨ c = 'E' := by
  have hlower : 'e'.toNat = 101 := rfl
  have hupper : 'E'.toNat = 69 := rfl
  rw [← Char.toNat_inj, ← Char.toNat_inj, ← Char.toNat_inj, Text.toNat_toLower, hlower, hupper]
  split_ifs <;> omega

theorem readExponent?_eq_some_iff {cs : List Char} {e : Int} :
    readExponent? cs = some e ↔ WrittenExponent cs e := by
  constructor
  · intro h
    cases cs with
    | nil =>
      obtain rfl : 0 = e := by simpa [readExponent?] using h
      exact .none
    | cons c cs =>
      obtain ⟨sign, hcs, hsign⟩ := exists_readSign cs
      rw [readExponent?] at h
      generalize readSign cs = signed at *
      obtain ⟨negative, digits⟩ := signed
      dsimp only at h hcs hsign
      split at h
      · next hc =>
        obtain ⟨hletter, hne, hdigit⟩ := hc
        obtain rfl := Option.some.inj h
        rw [hcs]
        exact .power (toLower_eq_e_iff.mp hletter) hsign (by simpa using hdigit) hne
      · cases h
  · intro h
    cases h with
    | none => rfl
    | @power letter sign digits negative hletter hsign hdigit hne =>
      have hread : readSign (sign ++ digits) = (negative, digits) := by
        apply readSign_append hsign
        intro c hc
        exact ne_sign_of_isDigit (hdigit c (List.mem_of_mem_head? hc))
      simp only [readExponent?, hread]
      rw [if_pos ⟨toLower_eq_e_iff.mpr hletter, hne, by simpa using hdigit⟩]

theorem head_of_writtenExponent {cs : List Char} {e : Int} (h : WrittenExponent cs e) :
    ∀ c ∈ cs.head?, c.isDigit = false ∧ c ≠ '.' := by
  intro c hc
  cases h with
  | none => cases hc
  | @power letter _ _ _ hletter =>
    obtain rfl : letter = c := by simpa using hc
    rcases hletter with rfl | rfl <;> decide

/-! ## Decimals -/

theorem read?_of_written {cs : List Char} {d : Decimal} (h : Written cs d) :
    read? cs = some d := by
  obtain ⟨hsign, hdigits, hexponent⟩ := h
  have hhead := head_of_writtenExponent hexponent
  have he := readExponent?_eq_some_iff.mpr hexponent
  rw [read?, List.append_assoc, readSign_append hsign (head_of_writtenDigits hdigits)]
  cases hdigits with
  | integer hdigit hne =>
    simp only [readDigits_append hdigit fun c hc => (hhead c hc).1,
      readFraction_of_ne_point fun c hc => (hhead c hc).2, he]
    simp [hne]
  | point hdigit hne =>
    have hwhole := fun c hc => hdigit c (List.mem_append_left _ hc)
    have hfraction := fun c hc => hdigit c (List.mem_append_right _ hc)
    rw [List.append_assoc, List.cons_append]
    simp only [@readDigits_append _ ('.' :: _) hwhole (by simp), readFraction,
      readDigits_append hfraction fun c hc => (hhead c hc).1, he]
    rw [if_neg hne, Option.map_some]

theorem exists_writtenDigits {cs whole more fraction rest : List Char}
    (hne : whole ++ fraction ≠ []) (hwhole : readDigits cs = (whole, more))
    (hfraction : readFraction more = (fraction, rest)) :
    ∃ digits, cs = digits ++ rest ∧ WrittenDigits digits whole fraction := by
  have hcs := readDigits_append_eq cs
  have hdigit : ∀ c ∈ (readDigits cs).1, c.isDigit := fun c => isDigit_of_mem_readDigits
  rw [hwhole] at hcs hdigit
  unfold readFraction at hfraction
  split at hfraction
  · next more =>
    have hmore := readDigits_append_eq more
    have hdigit' : ∀ c ∈ (readDigits more).1, c.isDigit := fun c => isDigit_of_mem_readDigits
    rw [hfraction] at hmore hdigit'
    refine ⟨whole ++ '.' :: fraction, ?_, .point ?_ hne⟩
    · rw [← hcs, ← hmore, List.append_assoc, List.cons_append]
    · intro c hc
      exact (List.mem_append.mp hc).elim (hdigit c) (hdigit' c)
  · obtain ⟨rfl, rfl⟩ := Prod.mk.inj hfraction
    exact ⟨whole, hcs.symm, .integer hdigit (by simpa using hne)⟩

theorem written_of_read? {cs : List Char} {d : Decimal} (h : read? cs = some d) :
    Written cs d := by
  obtain ⟨sign, hcs, hsign⟩ := exists_readSign cs
  unfold read? at h
  generalize readSign cs = signed at *
  obtain ⟨negative, unsigned⟩ := signed
  dsimp only at h hcs hsign
  generalize hw : readDigits unsigned = w at h
  obtain ⟨whole, more⟩ := w
  dsimp only at h
  generalize hf : readFraction more = w at h
  obtain ⟨fraction, exponent⟩ := w
  dsimp only at h
  split at h
  · cases h
  · next hne =>
    obtain ⟨e, he, rfl⟩ := Option.map_eq_some_iff.mp h
    obtain ⟨digits, rfl, hdigits⟩ :=
      exists_writtenDigits hne hw hf
    rw [hcs, ← List.append_assoc]
    exact .mk hsign hdigits (readExponent?_eq_some_iff.mp he)

theorem read?_eq_some_iff {cs : List Char} {d : Decimal} :
    read? cs = some d ↔ Written cs d :=
  ⟨written_of_read?, read?_of_written⟩

end PointSymbol.Decimal
